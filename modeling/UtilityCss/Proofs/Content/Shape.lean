import UtilityCss.Proofs.Content.Kept
import UtilityCss.Proofs.FileTree.Shape
import UtilityCss.Scan

/-!
# Content Without Its Text

Which files are content, whatever is written in them.

Patterns are matched with paths, so the content that a configuration names depends on
the shape of the tree only, and writing over a file does not change it. What is found
there changes only if the file is content itself.

## Theorems

* `resolve_emptied`: The content depends on the shape of the tree.
* `Selection.scan_put`: Writing over a file that is no content changes nothing.
-/

namespace UtilityCss

namespace Content

variable (t : FileTree) (root : String)

theorem normalize_emptied (pattern : String) :
    normalize t.emptied root pattern = normalize t root pattern := by
  rw [normalize, normalize, FileTree.isDirectory_emptied]

variable (exclude : List Glob)

theorem identity_emptied (path : String) :
    Scope.identity ⟨t.emptied, root, exclude⟩ path = Scope.identity ⟨t, root, exclude⟩ path := by
  rw [Scope.identity, Scope.identity, FileTree.canonical?_emptied]

theorem walk_emptied (pattern : String) :
    Scope.walk ⟨t.emptied, root, exclude⟩ pattern = Scope.walk ⟨t, root, exclude⟩ pattern :=
  t.walk_emptied _ _

theorem addFile_emptied (extractor : Nat) :
    addFile ⟨t.emptied, root, exclude⟩ extractor = addFile ⟨t, root, exclude⟩ extractor := by
  funext sel path
  rw [addFile, addFile, identity_emptied]

theorem addPattern_emptied (extractor : Nat) :
    addPattern ⟨t.emptied, root, exclude⟩ extractor = addPattern ⟨t, root, exclude⟩ extractor := by
  funext sel pattern
  unfold addPattern Scope.files Scope.errors
  simp only [normalize_emptied, walk_emptied, addFile_emptied]
  rfl

theorem addEntry_emptied :
    addEntry ⟨t.emptied, root, exclude⟩ = addEntry ⟨t, root, exclude⟩ := by
  funext sel entry
  cases entry with
  | glob pattern => rw [addEntry, addEntry, addPattern_emptied]
  | files patterns extract => simp only [addEntry, addPattern_emptied]
  | raw text extension => rfl

/-- Which pieces of content there are depends on the shape of the tree only. -/
theorem resolve_emptied (config : Config) :
    resolve t.emptied root config = resolve t root config := by
  unfold resolve
  simp only [addEntry_emptied]

end Content

/-- Writing over a file that is no content changes nothing that is found. -/
theorem Selection.scan_put {t : FileTree} {path : String} {place : List String}
    {old : Option (List UInt8)} (h : t.find true path = .ok (.found place (.file old)))
    (new : Option (List UInt8)) {sel : Selection}
    (hsel : ∀ other ∈ sel.paths, t.canonical? other ≠ t.canonical? path) :
    sel.scan (t.put place (.file new)) = sel.scan t := by
  refine congrArg Findings.mergeAll (List.map_congr_left fun item hitem => ?_)
  have hread : item.read (t.put place (.file new)) = item.read t := by
    rcases item with ⟨_ | ⟨number, text⟩, extractor⟩
    · next other =>
        have hmem : other ∈ sel.paths := sel.mem_paths_of_mem_items hitem rfl
        exact congrArg (Except.map Text.decodeLossy) (FileTree.read_put h new (hsel other hmem))
    · rfl
  rw [ContentItem.scan, ContentItem.scan, hread]

end UtilityCss
