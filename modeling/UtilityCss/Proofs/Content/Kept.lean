import Mathlib.Data.List.Basic
import UtilityCss.Content

/-!
# What Pieces of Content Refer To

The positions that a selection keeps.

A selection has its texts and its extractors in lists of their own, and a piece says at which
positions they are. Nothing in the types says that there is something at these positions. It
is an invariant of finding content: what is added refers to what is there by then, and both
lists only grow at their ends, so a position never comes to stand for something else.

This is what makes a piece mean the same before and after more content is found, and it is
used wherever the content is said by what its pieces stand for.

## Main definitions

* `Selection.Holds`: What a piece refers to is there.
* `Selection.IsInRange`: What the pieces of a selection refer to is there.
* `Selection.Extends`: A selection that has the texts and extractors of another one, and more.

## Theorems

* `Selection.Extends.load?_eq`: A piece stands for the same content in an extended selection.
* `Selection.items_of_extends`: The content of a selection with more pieces.
* `Selection.IsInRange.map_load?`: All pieces can be looked up.
-/

namespace UtilityCss

/-- The path of a piece of content that is a file. -/
def ContentItem.path? (item : ContentItem) : Option String :=
  match item.source with
  | .file path => some path
  | .raw _ _ => none

/-- The position of the text of a piece, if it is one. -/
def ContentPiece.text? (piece : ContentPiece) : Option Nat :=
  match piece.place with
  | .file _ => none
  | .text index => some index

namespace Selection

/-- What a piece refers to is there. -/
structure Holds (sel : Selection) (piece : ContentPiece) : Prop where
  /-- Its extractor is. -/
  extractor : piece.extractor < sel.extractors.length
  /-- Its text is, if it is one. -/
  text : ∀ index, piece.text? = some index → index < sel.texts.length

/-- What the pieces of a selection refer to is there. -/
def IsInRange (sel : Selection) : Prop := ∀ piece ∈ sel.pieces, sel.Holds piece

/-- A selection has the texts and extractors of another one, and maybe more behind them. -/
structure Extends (sel sel' : Selection) : Prop where
  /-- The extractors of the first one come first. -/
  extractors : sel.extractors <+: sel'.extractors
  /-- So do its texts. -/
  texts : sel.texts <+: sel'.texts

/-- The files that pieces stand for are among the files of the selection. -/
theorem mem_paths_of_mem_items (sel : Selection) {item : ContentItem} {path : String}
    (h : item ∈ sel.items) (hsource : item.source = .file path) : path ∈ sel.paths := by
  rcases List.mem_filterMap.1 h with ⟨piece, hpiece, hload⟩
  rcases Option.map_eq_some_iff.1 hload with ⟨extractor, -, rfl⟩
  refine List.mem_filterMap.2 ⟨piece, hpiece, ?_⟩
  rcases piece with ⟨other | index, position⟩
  · exact congrArg some (ContentSource.file.inj hsource)
  · exact ContentSource.noConfusion hsource

theorem isInRange_empty : empty.IsInRange := fun _ hpiece => absurd hpiece List.not_mem_nil

section

variable {sel sel' : Selection} {piece : ContentPiece}

theorem Holds.of_extends (h : sel.Holds piece) (hextends : sel.Extends sel') :
    sel'.Holds piece where
  extractor := Nat.lt_of_lt_of_le h.extractor hextends.extractors.length_le
  text := fun index hindex => Nat.lt_of_lt_of_le (h.text index hindex) hextends.texts.length_le

/-- A piece stands for the same content in an extended selection. -/
theorem Extends.load?_eq (hextends : sel.Extends sel') (h : sel.Holds piece) :
    sel'.load? piece = sel.load? piece := by
  have hextractor : sel'.extractors[piece.extractor]? = sel.extractors[piece.extractor]? := by
    rcases hextends.extractors with ⟨more, hmore⟩
    rw [← hmore, List.getElem?_append_left h.extractor]
  have hsource : sel'.source piece.place = sel.source piece.place := by
    rcases hplace : piece.place with path | index
    · rfl
    · rcases hextends.texts with ⟨more, hmore⟩
      have hindex : index < sel.texts.length := h.text index (by rw [ContentPiece.text?, hplace])
      rw [source, source, ← hmore, List.getElem?_append_left hindex]
  rw [load?, load?, hextractor, hsource]

/-- The content of a selection with more pieces is what was there, and what they stand for. -/
theorem items_of_extends (h : sel.IsInRange) (hextends : sel.Extends sel')
    {more : List ContentPiece} (hpieces : sel'.pieces = sel.pieces ++ more) :
    sel'.items = sel.items ++ more.filterMap sel'.load? := by
  rw [items, items, hpieces, List.filterMap_append]
  refine congrArg (· ++ _) (List.filterMap_congr fun piece hpiece => ?_)
  exact hextends.load?_eq (h piece hpiece)

/-- Files stand for themselves, with the extractor that they refer to. -/
theorem filterMap_load?_files {position : Nat} {extractor : Extractor}
    (h : sel.extractors[position]? = some extractor) (paths : List String) :
    (paths.map fun path => ContentPiece.mk (.file path) position).filterMap sel.load?
      = paths.map fun path => ⟨.file path, extractor⟩ := by
  rw [List.filterMap_map, ← List.filterMap_eq_map]
  refine List.filterMap_congr fun path _ => ?_
  rw [Function.comp_apply, load?, h]
  rfl

/-- A text stands for itself, under the number that comes with its position. -/
theorem filterMap_load?_text {index position : Nat} {text : String} {extractor : Extractor}
    (htext : sel.texts[index]? = some text) (h : sel.extractors[position]? = some extractor) :
    [ContentPiece.mk (.text index) position].filterMap sel.load?
      = [⟨.raw (index + 1) text, extractor⟩] := by
  refine List.filterMap_cons_some ?_
  rw [load?, source, htext, h]
  rfl

theorem IsInRange.of_extends (h : sel.IsInRange) (hextends : sel.Extends sel')
    {more : List ContentPiece} (hpieces : sel'.pieces = sel.pieces ++ more)
    (hmore : ∀ piece ∈ more, sel'.Holds piece) : sel'.IsInRange := by
  intro piece hpiece
  rw [hpieces] at hpiece
  rcases List.mem_append.1 hpiece with hpiece | hpiece
  · exact (h piece hpiece).of_extends hextends
  · exact hmore piece hpiece

theorem Holds.exists_load? (h : sel.Holds piece) :
    ∃ item, sel.load? piece = some item ∧ item.source = sel.source piece.place := by
  rw [load?, List.getElem?_eq_getElem h.extractor]
  exact ⟨_, rfl, rfl⟩

/-- All pieces can be looked up. -/
theorem IsInRange.map_load? (h : sel.IsInRange) :
    sel.pieces.map sel.load? = sel.items.map some := by
  have hall : ∀ pieces : List ContentPiece, (∀ piece ∈ pieces, sel.Holds piece) →
      pieces.map sel.load? = (pieces.filterMap sel.load?).map some := by
    intro pieces hpieces
    induction pieces with
    | nil => rfl
    | cons piece pieces ih =>
        rcases List.forall_mem_cons.1 hpieces with ⟨hpiece, hrest⟩
        rcases hpiece.exists_load? with ⟨item, hitem, -⟩
        rw [List.map_cons, List.filterMap_cons_some hitem, List.map_cons, hitem, ih hrest]
  exact hall sel.pieces h

theorem IsInRange.length_items (h : sel.IsInRange) : sel.items.length = sel.pieces.length := by
  rw [← List.length_map (f := some), ← h.map_load?, List.length_map]

/-- The files among the pieces are the files among what they stand for. -/
theorem IsInRange.paths_eq (h : sel.IsInRange) :
    sel.paths = sel.items.filterMap ContentItem.path? := by
  rw [items, paths, List.filterMap_filterMap]
  refine List.filterMap_congr fun piece hpiece => ?_
  rcases (h piece hpiece).exists_load? with ⟨item, hitem, hsource⟩
  rw [hitem, Option.bind_some, ContentItem.path?, hsource]
  rcases piece with ⟨path | index, extractor⟩ <;> rfl

end

end Selection

end UtilityCss
