import UtilityCss.Config
import UtilityCss.Content.Reach
import UtilityCss.Diagnostic
import UtilityCss.Error
import UtilityCss.Extractor
import UtilityCss.FileTree.Walk

/-!
# Content

The pieces of content that a configuration names, in the order in which they
are scanned.

A pattern stands for the files below the project's root that it matches, that
no exclusion matches, and that have an extension known to hold class names. A
pattern that is the path of a directory stands for everything below it. A file
is scanned once, for the first pattern that brings it in, whatever links lead to
it.

A selection keeps each text and each extractor once, and its pieces refer to them
by their positions. A piece is looked up when it is scanned.

Malformed patterns end the build. A pattern that matches nothing and a
directory that cannot be walked are remarked on only; the latter only if the
pattern can match something there.

## Main definitions

* `ContentItem`: A piece of content.
* `ContentPiece`: A piece of content as it is kept.
* `Selection`: The pieces found so far, with remarks.
* `Selection.load?`, `Selection.items`: The pieces with what they refer to.
* `Content.resolve`: The content of a configuration.

## Theorems

* `Content.addPattern_of_parse?`, `Content.addPattern_of_parse?_eq_none`: What a pattern adds, and
  what is wrong with one that is malformed.
* `Content.exists_extractorOf_iff`: When an entry has an extractor.
-/

namespace UtilityCss

/-- Where a piece of content is. -/
inductive ContentSource where
  /-- In a file. -/
  | file (path : String)
  /-- In the configuration, under a number that counts from 1. -/
  | raw (number : Nat) (text : String)
deriving DecidableEq, Repr, Inhabited

/-- The name of a piece of content in remarks. -/
def ContentSource.origin : ContentSource → String
  | .file path => path
  | .raw number _ => s!"<raw content #{number}>"

/-- A piece of content. -/
structure ContentItem where
  /-- Where it is. -/
  source : ContentSource
  /-- Where its tokens are looked for. -/
  extractor : Extractor
deriving DecidableEq, Repr, Inhabited

/-- Where a piece of content is kept. -/
inductive ContentPlace where
  /-- In a file. -/
  | file (path : String)
  /-- At a position among the texts of the configuration. -/
  | text (index : Nat)
deriving DecidableEq, Repr, Inhabited

/-- A piece of content as it is kept. -/
structure ContentPiece where
  /-- Where it is. -/
  place : ContentPlace
  /-- The position of its extractor. -/
  extractor : Nat
deriving DecidableEq, Repr, Inhabited

/-- The pieces of content found so far. -/
structure Selection where
  /-- The pieces, in the order in which they are scanned. -/
  pieces : List ContentPiece
  /-- The texts of the configuration. -/
  texts : List String
  /-- The extractors. -/
  extractors : List Extractor
  /-- The canonical paths of the files among the pieces. -/
  seen : List String
  /-- The remarks. -/
  diagnostics : List Diagnostic
deriving Inhabited

namespace Selection

/-- Nothing has been found. The extractor of pieces that have none of their own stands
    first. -/
def empty : Selection := ⟨[], [], [.everywhere], [], []⟩

/-- What a place stands for. A text that is not there is empty. -/
def source (sel : Selection) : ContentPlace → ContentSource
  | .file path => .file path
  | .text index => .raw (index + 1) (sel.texts[index]?.getD "")

/-- A piece with what it refers to, if its extractor is there. -/
def load? (sel : Selection) (piece : ContentPiece) : Option ContentItem :=
  sel.extractors[piece.extractor]?.map fun extractor => ⟨sel.source piece.place, extractor⟩

/-- The pieces with what they refer to. -/
def items (sel : Selection) : List ContentItem := sel.pieces.filterMap sel.load?

/-- The piece of a number with what it refers to. -/
def item? (sel : Selection) (i : Nat) : Option ContentItem := sel.pieces[i]?.bind sel.load?

/-- The number of pieces. -/
def size (sel : Selection) : Nat := sel.pieces.length

/-- The paths of the files, in the order in which they are scanned. -/
def paths (sel : Selection) : List String :=
  sel.pieces.filterMap fun piece => match piece.place with
    | .file path => some path
    | .text _ => none

end Selection

namespace Content

/-- The extensions of files that are scanned. -/
def extensions : List String :=
  ["html", "htm", "j2", "jinja", "jinja2", "njk", "hbs", "twig", "erb", "php", "vue", "svelte",
   "astro", "js", "jsx", "mjs", "cjs", "ts", "tsx", "md", "mdx", "rs", "txt", "css", "scss",
   "less"]

/-- The path has an extension of files that are scanned, in any case. -/
def hasKnownExtension (path : String) : Bool :=
  match Path.extension? path with
  | some e => extensions.contains e.toLower
  | none => false

/-- The path without every `./` at its start. -/
def withoutHere (path : String) : String :=
  String.ofList (Text.dropWords ['.', '/'] path.toList)

/-- The glob of a pattern. -/
def globOf (pattern : String) : Except BuildError Glob :=
  match Glob.parse? pattern with
  | some g => .ok g
  | none => .error (.invalidGlob pattern)

theorem globOf_of_parse? {pattern : String} {g : Glob} (h : Glob.parse? pattern = some g) :
    globOf pattern = .ok g := by
  rw [globOf, h]

/-- The pattern that is meant: without `./` at its start and slashes at its end,
    and with everything below it if it is the path of a directory. -/
def normalize (t : FileTree) (root pattern : String) : String :=
  let pattern := FileTree.withoutSlashes (withoutHere pattern)
  if !Reach.hasWildcard pattern && t.isDirectory (Path.join root pattern) then
    if pattern = "" then "**/*" else pattern ++ "/**/*"
  else pattern

/-- The remark on a path that cannot be walked. -/
def unreadable (e : WalkError) : Diagnostic :=
  Diagnostic.warning DiagnosticCode.unreadable s!"cannot read {e.path}: {e.message}"

/-- The remark on a pattern that matches nothing. -/
def emptyPattern (pattern : String) : Diagnostic :=
  { severity := .warning
    code := DiagnosticCode.emptyPattern
    message := s!"content pattern '{pattern}' matched no files"
    help := some ("Patterns are relative to the project root; recognized extensions: " ++
      ", ".intercalate extensions) }

/-- What a pattern is looked for in: the files of a tree below a root, without
    exclusions. -/
structure Scope where
  /-- The files. -/
  tree : FileTree
  /-- The path of the project's root. -/
  root : String
  /-- The globs of files that are not scanned. -/
  exclude : List Glob

namespace Scope

/-- The text that globs match: the path of a file below the root. -/
def relative? (s : Scope) (path : String) : Option String := Path.relative? s.root path

/-- The file is one of those that a glob stands for. -/
def admits (s : Scope) (g : Glob) (path : String) : Bool :=
  match s.relative? path with
  | none => false
  | some relative =>
    g.accepts true relative && !s.exclude.any (·.accepts true relative)
      && hasKnownExtension path

/-- An error at a path matters to a pattern. -/
def matters (s : Scope) (pattern : String) (g : Glob) (e : WalkError) : Bool :=
  match s.relative? e.path with
  | none => true
  | some relative => g.accepts true relative || Reach.mayHold pattern relative

/-- The walk through what a pattern can match. -/
def walk (s : Scope) (pattern : String) : List (Except WalkError String) :=
  s.tree.walk (Path.join s.root (Reach.base pattern)) (Reach.levels pattern)

/-- The files that a pattern stands for. -/
def files (s : Scope) (pattern : String) (g : Glob) : List String :=
  (s.walk pattern).filterMap fun
    | .ok path => if s.admits g path then some path else none
    | .error _ => none

/-- The errors on the way that matter to a pattern. -/
def errors (s : Scope) (pattern : String) (g : Glob) : List WalkError :=
  (s.walk pattern).filterMap fun
    | .ok _ => none
    | .error e => if s.matters pattern g e then some e else none

/-- The name by which a file is known to be the same: its canonical path. -/
def identity (s : Scope) (path : String) : String := (s.tree.canonical? path).getD path

end Scope

/-- A selection with a file added, unless it is there. -/
def addFile (s : Scope) (extractor : Nat) (sel : Selection) (path : String) : Selection :=
  let identity := s.identity path
  if sel.seen.contains identity then sel
  else
    { sel with
      pieces := sel.pieces ++ [⟨.file path, extractor⟩]
      seen := identity :: sel.seen }

/-- A selection with the files of a pattern added. -/
def addPattern (s : Scope) (extractor : Nat) (sel : Selection) (pattern : String) :
    Except BuildError Selection := do
  let pattern := normalize s.tree s.root pattern
  let g ← globOf pattern
  let files := s.files pattern g
  let remarks := (s.errors pattern g).map unreadable
    ++ (if files.isEmpty then [emptyPattern pattern] else [])
  return files.foldl (addFile s extractor)
    { sel with diagnostics := sel.diagnostics ++ remarks }

section

variable {s : Scope} {pattern : String}

theorem addPattern_of_parse? {g : Glob}
    (h : Glob.parse? (normalize s.tree s.root pattern) = some g) (extractor : Nat)
    (sel : Selection) : addPattern s extractor sel pattern
      = .ok ((s.files (normalize s.tree s.root pattern) g).foldl (addFile s extractor)
          { sel with
            diagnostics := sel.diagnostics
              ++ ((s.errors (normalize s.tree s.root pattern) g).map unreadable
                ++ (if (s.files (normalize s.tree s.root pattern) g).isEmpty then
                    [emptyPattern (normalize s.tree s.root pattern)] else [])) }) := by
  unfold addPattern
  dsimp only
  rw [globOf_of_parse? h]
  rfl

theorem addPattern_of_parse?_eq_none
    (h : Glob.parse? (normalize s.tree s.root pattern) = none) (extractor : Nat)
    (sel : Selection) : addPattern s extractor sel pattern
      = .error (.invalidGlob (normalize s.tree s.root pattern)) := by
  unfold addPattern globOf
  dsimp only
  rw [h]
  rfl

end

/-- The extractor of an entry. -/
def extractorOf : Option String → Except BuildError Extractor
  | none => .ok .everywhere
  | some pattern =>
    match Extractor.ofPattern? pattern with
    | some e => .ok e
    | none => .error (.invalidExtract pattern)

theorem exists_extractorOf_iff {extract : Option String} :
    (∃ e, extractorOf extract = .ok e) ↔
      ∀ pattern, extract = some pattern → (Extractor.ofPattern? pattern).isSome = true := by
  cases extract with
  | none =>
      refine iff_of_true ⟨_, rfl⟩ fun pattern h => ?_
      exact absurd h.symm (Option.some_ne_none pattern)
  | some pattern =>
      simp only [Option.some.injEq, forall_eq', extractorOf]
      cases Extractor.ofPattern? pattern with
      | none =>
          refine iff_of_false ?_ Bool.false_ne_true
          rintro ⟨e, h⟩
          cases h
      | some e => exact iff_of_true ⟨e, rfl⟩ rfl

/-- A selection that has the extractor of an entry, and the position of that one. -/
def addExtractor (sel : Selection) (extract : Option String) :
    Except BuildError (Selection × Nat) := do
  let extractor ← extractorOf extract
  return match extract with
    | none => (sel, 0)
    | some _ => ({ sel with extractors := sel.extractors ++ [extractor] }, sel.extractors.length)

theorem exists_addExtractor {extract : Option String} {extractor : Extractor}
    (h : extractorOf extract = .ok extractor) (sel : Selection) :
    ∃ more position, addExtractor sel extract
        = .ok ({ sel with extractors := sel.extractors ++ more }, position) ∧
      (sel.extractors[0]? = some .everywhere →
        (sel.extractors ++ more)[position]? = some extractor) := by
  unfold addExtractor
  rw [h]
  cases extract with
  | none =>
      cases h
      refine ⟨[], 0, by rw [List.append_nil]; rfl, fun hfirst => ?_⟩
      rw [List.append_nil]
      exact hfirst
  | some pattern =>
      exact ⟨[extractor], sel.extractors.length, rfl, fun _ => List.getElem?_concat_length⟩

theorem of_addExtractor {extract : Option String} {sel sel' : Selection} {position : Nat}
    (h : addExtractor sel extract = .ok (sel', position)) :
    (∃ extractor, extractorOf extract = .ok extractor) ∧
      ∃ more, sel' = { sel with extractors := sel.extractors ++ more } := by
  rcases hextractor : extractorOf extract with e | extractor
  · unfold addExtractor at h
    rw [hextractor] at h
    cases h
  · rcases exists_addExtractor hextractor sel with ⟨more, position', hadd, -⟩
    rw [hadd] at h
    cases h
    exact ⟨⟨extractor, rfl⟩, more, rfl⟩

/-- A selection with an entry's content added. -/
def addEntry (s : Scope) (sel : Selection) : ContentEntry → Except BuildError Selection
  | .glob pattern => addPattern s 0 sel pattern
  | .files patterns extract => do
    let (sel, extractor) ← addExtractor sel extract
    patterns.foldlM (addPattern s extractor) sel
  | .raw text _ =>
    .ok { sel with
      pieces := sel.pieces ++ [⟨.text sel.texts.length, 0⟩]
      texts := sel.texts ++ [text] }

/-- The content of a configuration, for a project with its root at a path. -/
def resolve (t : FileTree) (root : String) (config : Config) :
    Except BuildError Selection := do
  let exclude ← config.exclude.mapM fun pattern => globOf (withoutHere pattern)
  config.content.foldlM (addEntry ⟨t, root, exclude⟩) .empty

end Content

end UtilityCss
