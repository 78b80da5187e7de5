import Mathlib.Algebra.Ring.Nat
import UtilityCss.Proofs.Extraction

/-!
# Findings Put Together

What is found does not depend on how it is put together.

The tokens are a union and the count is a sum, so neither brackets nor order matter to them.
The remarks are put one behind the other, so brackets do not matter and the order of the
remarks is that of the pieces. All three are told by the list of the pieces alone
(`Findings.mergeAll`), and whatever is said of merges is read off that.

Division of the work changes neither the pieces nor their order: cutting a list in two and
putting the results one behind the other is going through the list. So dividing the work finds
the same as doing it in one go, whatever state the files are in.

## Main definitions

* `Bracketing`: Findings with brackets around the merges.
* `Findings.MergesAlike`: All ways to put findings together come to the same.
* `Selection.ScansAlike`: All ways to scan a selection come to the same.

## Theorems

* `Bracketing.merged_eq`: Brackets do not matter.
* `Findings.mergeAll_perm`: Order matters to the remarks only.
* `Division.gather_eq`: Dividing work does not change what comes back.
* `Selection.scansAlike`: All ways to scan, and all ways to merge, come to the same.
-/

namespace UtilityCss

namespace Findings

theorem merge_assoc (a b c : Findings) : (a.merge b).merge c = a.merge (b.merge c) := by
  simp only [merge_eq, SortedSet.union_assoc, List.append_assoc, Nat.add_assoc]

theorem empty_merge (a : Findings) : empty.merge a = a := by
  rw [merge_eq, empty, SortedSet.empty_union, List.nil_append, Nat.zero_add]

theorem merge_empty (a : Findings) : a.merge empty = a := by
  rw [merge_eq, SortedSet.union_comm, empty, SortedSet.empty_union, List.append_nil, Nat.add_zero]

theorem mergeAll_append (parts more : List Findings) :
    mergeAll (parts ++ more) = (mergeAll parts).merge (mergeAll more) := by
  have hfold : ∀ (more : List Findings) (found : Findings),
      more.foldl merge found = found.merge (mergeAll more) := by
    intro more
    induction more with
    | nil =>
        intro found
        exact (merge_empty found).symm
    | cons next more ih =>
        intro found
        rw [mergeAll, List.foldl_cons, List.foldl_cons, ih, ih (empty.merge next), empty_merge,
          merge_assoc]
  rw [mergeAll, List.foldl_append, hfold]
  rfl

theorem filesScanned_mergeAll (parts : List Findings) :
    (mergeAll parts).filesScanned = (parts.map filesScanned).sum := by
  induction parts with
  | nil => rfl
  | cons part parts ih =>
      have hfirst : mergeAll [part] = part := empty_merge part
      rw [← List.singleton_append, mergeAll_append, hfirst, merge_eq, ih]
      rfl

/-- The order of the pieces matters to the remarks only. -/
theorem mergeAll_perm {parts parts' : List Findings} (h : parts'.Perm parts) :
    (mergeAll parts').tokens = (mergeAll parts).tokens ∧
      (mergeAll parts').filesScanned = (mergeAll parts).filesScanned ∧
      (mergeAll parts').diagnostics.Perm (mergeAll parts).diagnostics := by
  refine ⟨SortedSet.ext_mem fun token => ?_, ?_, ?_⟩
  · simp only [mem_tokens_mergeAll, h.mem_iff]
  · rw [filesScanned_mergeAll, filesScanned_mergeAll]
    exact (h.map filesScanned).sum_nat
  · rw [diagnostics_mergeAll, diagnostics_mergeAll]
    exact h.flatMap_right diagnostics

end Findings

/-- Findings with brackets around the merges. -/
inductive Bracketing where
  /-- No findings. -/
  | nothing
  /-- The findings of a piece. -/
  | piece (found : Findings)
  /-- Two bracketings merged. -/
  | both (first second : Bracketing)

namespace Bracketing

/-- The findings of the pieces, in order. -/
def parts : Bracketing → List Findings
  | nothing => []
  | piece found => [found]
  | both first second => first.parts ++ second.parts

/-- The findings, merged as the brackets say. -/
def merged : Bracketing → Findings
  | nothing => .empty
  | piece found => found
  | both first second => first.merged.merge second.merged

/-- Brackets do not matter. -/
theorem merged_eq (b : Bracketing) : b.merged = Findings.mergeAll b.parts := by
  induction b with
  | nothing => rfl
  | piece found => exact (Findings.empty_merge found).symm
  | both first second ihfirst ihsecond =>
      rw [merged, parts, Findings.mergeAll_append, ihfirst, ihsecond]

end Bracketing

/-- All ways to put findings together come to the same. -/
structure Findings.MergesAlike (parts : List Findings) : Prop where
  /-- Brackets do not matter, and neither do places where nothing is found. -/
  bracketed : ∀ b : Bracketing, b.parts = parts → b.merged = mergeAll parts
  /-- In another order there are the same tokens, as many pieces read and the same remarks. -/
  reordered : ∀ parts' : List Findings, parts'.Perm parts →
    (mergeAll parts').tokens = (mergeAll parts).tokens ∧
      (mergeAll parts').filesScanned = (mergeAll parts).filesScanned ∧
      (mergeAll parts').diagnostics.Perm (mergeAll parts).diagnostics
  /-- The remarks follow the order. -/
  remarks : ∀ parts' : List Findings, parts'.Perm parts →
    (mergeAll parts').diagnostics = parts'.flatMap diagnostics
  /-- It makes no difference which set of tokens is added to which. -/
  swapped : ∀ a ∈ parts, ∀ b ∈ parts, (a.merge b).tokens = a.tokens.union b.tokens ∧
    (a.merge b).tokens = b.tokens.union a.tokens

theorem Findings.mergesAlike (parts : List Findings) : MergesAlike parts where
  bracketed b h := h ▸ b.merged_eq
  reordered _ h := mergeAll_perm h
  remarks parts' _ := diagnostics_mergeAll parts'
  swapped a _ b _ := by
    rw [merge_eq]
    exact ⟨rfl, SortedSet.union_comm _ _⟩

/-- Dividing work does not change what comes back. -/
theorem Division.gather_eq {α β : Type} (work : α → Option β) (d : Division) (as : List α) :
    d.gather work as = as.filterMap work := by
  induction d generalizing as with
  | whole => rfl
  | cut count first second ihfirst ihsecond =>
      rw [gather, ihfirst, ihsecond, ← List.filterMap_append, List.take_append_drop]

/-- The remark on a piece of content, if it cannot be read. -/
def ContentItem.remark? (t : FileTree) (item : ContentItem) : Option Diagnostic :=
  match item.read t with
  | .ok _ => none
  | .error e => some (unreadable item.source.origin e)

/-- All ways to scan a selection come to the same. -/
structure Selection.ScansAlike (t : FileTree) (sel : Selection) : Prop where
  /-- It does not matter how the work is divided. -/
  divided : ∀ d : Division, sel.scanDivided d t = sel.scan t
  /-- There is one remark for each piece that cannot be read, in the order of the pieces. -/
  remarks : (sel.scan t).diagnostics = sel.items.filterMap (ContentItem.remark? t)
  /-- All others are read. -/
  count : (sel.scan t).filesScanned
    = sel.items.countP fun item => (item.remark? t).isNone

theorem Division.filterMap_getElem?_range {α β : Type} (work : α → Option β) (as : List α) :
    (List.range as.length).filterMap (fun i => as[i]?.bind work) = as.filterMap work := by
  induction as with
  | nil => rfl
  | cons a as ih =>
      rw [List.length_cons, List.range_succ_eq_map, List.filterMap_cons, List.filterMap_map,
        List.filterMap_cons, ← ih]
      rfl

namespace Selection

theorem scanDivided_eq (d : Division) (t : FileTree) (sel : Selection) :
    sel.scanDivided d t = sel.scan t := by
  have hwork : ∀ i, (sel.item? i).map (ContentItem.scan t)
      = sel.pieces[i]?.bind fun piece => (sel.load? piece).map (ContentItem.scan t) :=
    fun i => Option.map_bind
  rw [scanDivided, Division.gather_eq, size, funext hwork, Division.filterMap_getElem?_range, scan,
    items, List.map_filterMap]

theorem diagnostics_scan_eq (t : FileTree) (sel : Selection) :
    (sel.scan t).diagnostics = sel.items.filterMap (ContentItem.remark? t) := by
  rw [scan, Findings.diagnostics_mergeAll, List.flatMap_map, List.filterMap_eq_flatMap_toList]
  refine List.flatMap_congr fun item _ => ?_
  rw [ContentItem.scan, ContentItem.remark?]
  rcases item.read t with e | text <;> rfl

theorem filesScanned_scan (t : FileTree) (sel : Selection) :
    (sel.scan t).filesScanned = sel.items.countP fun item => (item.remark? t).isNone := by
  rw [scan, Findings.filesScanned_mergeAll, List.map_map]
  induction sel.items with
  | nil => rfl
  | cons item items ih =>
      have hitem : (item.scan t).filesScanned = if (item.remark? t).isNone then 1 else 0 := by
        rw [ContentItem.scan, ContentItem.remark?]
        rcases item.read t with e | text <;> rfl
      rw [List.map_cons, List.sum_cons, ih, List.countP_cons, Function.comp_apply, hitem,
        Nat.add_comm]

/-- Findings come to the same however they are merged, and so does scanning however the work is
    divided, whatever state the files are in. -/
theorem scansAlike (t : FileTree) (sel : Selection) (parts : List Findings) :
    Findings.MergesAlike parts ∧ sel.ScansAlike t :=
  ⟨Findings.mergesAlike parts, fun d => scanDivided_eq d t sel, diagnostics_scan_eq t sel,
    filesScanned_scan t sel⟩

end Selection

end UtilityCss
