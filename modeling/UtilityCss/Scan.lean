import UtilityCss.Content
import UtilityCss.Findings

/-!
# Scanning

The tokens in the content of a project.

Files are read when they are scanned, so a selection can be scanned again after
they have changed. Bytes that are no text count as characters that no token
has. A file that cannot be read is left out, with a remark.

The pieces can be scanned one after another, or the work can be divided. Who
gets which pieces is up to the machine, but what is found comes back in the
order of the pieces and is put together in that order.

## Main definitions

* `ContentItem.read`: The text of a piece of content.
* `ContentItem.scan`: What scanning a piece finds.
* `Selection.scan`: What scanning finds.
* `Division`: How work is divided.
* `Selection.scanDivided`: What scanning finds if the work is divided.
-/

namespace UtilityCss

namespace ContentItem

/-- The text of a piece of content. -/
def read (t : FileTree) (item : ContentItem) : Except FileError String :=
  match item.source with
  | .file path => (t.read path).map Text.decodeLossy
  | .raw _ text => .ok text

/-- The remark on a file that cannot be read. -/
def unreadable (origin : String) (e : FileError) : Diagnostic :=
  { severity := .warning
    code := DiagnosticCode.unreadable
    message := s!"cannot read {origin}: {e.message}"
    help := some "The file was skipped; its classes are not in the stylesheet" }

/-- What scanning a piece of content finds. -/
def scan (t : FileTree) (item : ContentItem) : Findings :=
  match item.read t with
  | .ok text => ⟨item.extractor.extract text, [], 1⟩
  | .error e => ⟨SortedSet.empty, [unreadable item.source.origin e], 0⟩

end ContentItem

/-- What scanning finds in a selection. -/
def Selection.scan (t : FileTree) (sel : Selection) : Findings :=
  Findings.mergeAll (sel.items.map (ContentItem.scan t))

/-- How work on a list is divided. -/
inductive Division where
  /-- One worker does it all. -/
  | whole
  /-- The list is cut after so many elements, and both halves are divided on. -/
  | cut (count : Nat) (first second : Division)
deriving Repr, Inhabited

/-- What the workers bring back, in the order of the list. -/
def Division.gather {α β : Type} (work : α → Option β) : Division → List α → List β
  | whole, as => as.filterMap work
  | cut count first second, as =>
    first.gather work (as.take count) ++ second.gather work (as.drop count)

/-- What scanning finds in a selection if the work is divided. A worker looks up
    pieces by their numbers. -/
def Selection.scanDivided (d : Division) (t : FileTree) (sel : Selection) : Findings :=
  Findings.mergeAll
    (d.gather (fun i => (sel.item? i).map (ContentItem.scan t)) (List.range sel.size))

end UtilityCss
