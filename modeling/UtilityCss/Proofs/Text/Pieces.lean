import UtilityCss.Text.Cut

/-!
# Pieces of Text

What is known of the pieces that a text is cut into.

A separator between two texts belongs to neither of them, so the pieces on either side are
found without a look at the other side. No piece has the separator in it, and pieces without
it are found again once they have been put together.

## Theorems

* `Text.cutAll_append`: A text is cut at a separator whatever stands around it.
* `Text.not_mem_of_mem_cutAll`: No piece has the separator in it.
* `Text.length_split`: There is one piece more than there are separators.
* `Text.split_intercalate`: Pieces that are put together are found again.
* `Text.intercalate_split`: A text is its pieces put together.
* `Text.mem_intercalate_iff`: Its characters are theirs, but for the separator.
-/

namespace UtilityCss

namespace Text

variable {sep : Char}

theorem cutAll_append (cs rest : List Char) :
    cutAll sep (cs ++ sep :: rest) = cutAll sep cs ++ cutAll sep rest := by
  induction cs with
  | nil => simp only [List.nil_append, cutAll, if_true, List.singleton_append]
  | cons c cs ih =>
      rw [List.cons_append, cutAll, cutAll, ih]
      by_cases hc : c = sep
      · rw [if_pos hc, if_pos hc, List.cons_append]
      · rw [if_neg hc, if_neg hc]
        rcases hp : cutAll sep cs with _ | ⟨piece, pieces⟩
        · exact absurd hp (cutAll_ne_nil sep cs)
        · rfl

theorem cutAll_of_not_mem {cs : List Char} (h : sep ∉ cs) : cutAll sep cs = [cs] := by
  induction cs with
  | nil => rfl
  | cons c cs ih =>
      rw [List.mem_cons, not_or] at h
      rw [cutAll, if_neg (Ne.symm h.1), ih h.2]

theorem not_mem_of_mem_cutAll {cs piece : List Char} (h : piece ∈ cutAll sep cs) :
    sep ∉ piece := by
  induction cs generalizing piece with
  | nil =>
      rw [List.mem_singleton.1 h]
      exact List.not_mem_nil
  | cons c cs ih =>
      rw [cutAll] at h
      -- Any other character is put in front of the first piece.
      by_cases hc : c = sep
      · rw [if_pos hc] at h
        rcases List.mem_cons.1 h with rfl | h
        · exact List.not_mem_nil
        · exact ih h
      · rw [if_neg hc] at h
        rcases hp : cutAll sep cs with _ | ⟨first, pieces⟩
        · exact absurd hp (cutAll_ne_nil sep cs)
        · rw [hp] at h ih
          rcases List.mem_cons.1 h with rfl | h
          · rw [List.mem_cons, not_or]
            exact ⟨Ne.symm hc, ih List.mem_cons_self⟩
          · exact ih (List.mem_cons_of_mem first h)

theorem split_append (s s' : String) :
    split sep (s ++ String.singleton sep ++ s') = split sep s ++ split sep s' := by
  have hlist : (s ++ String.singleton sep ++ s').toList = s.toList ++ sep :: s'.toList := by
    simp only [String.toList_append, String.toList_singleton, List.append_assoc,
      List.singleton_append]
  rw [split, split, split, hlist, cutAll_append, List.map_append]

theorem split_of_not_mem {s : String} (h : sep ∉ s.toList) : split sep s = [s] := by
  rw [split, cutAll_of_not_mem h, List.map_singleton, String.ofList_toList]

theorem not_mem_of_mem_split {s piece : String} (h : piece ∈ split sep s) :
    sep ∉ piece.toList := by
  rcases List.mem_map.1 h with ⟨cs, hcs, rfl⟩
  rw [String.toList_ofList]
  exact not_mem_of_mem_cutAll hcs

theorem split_ne_nil (s : String) : split sep s ≠ [] := fun h =>
  cutAll_ne_nil sep s.toList (List.map_eq_nil_iff.1 h)

/-- Pieces that are put together are found again. -/
theorem split_intercalate {pieces : List String} (hne : pieces ≠ [])
    (h : ∀ piece ∈ pieces, sep ∉ piece.toList) :
    split sep ((String.singleton sep).intercalate pieces) = pieces := by
  induction pieces with
  | nil => exact absurd rfl hne
  | cons piece pieces ih =>
      rcases List.forall_mem_cons.1 h with ⟨hpiece, hpieces⟩
      by_cases hlast : pieces = []
      · rw [hlast, String.intercalate_singleton, split_of_not_mem hpiece]
      · rw [String.intercalate_cons_of_ne_nil hlast, split_append, split_of_not_mem hpiece,
          ih hlast hpieces, List.singleton_append]

theorem length_cutAll (cs : List Char) : (cutAll sep cs).length = cs.count sep + 1 := by
  induction cs with
  | nil => rfl
  | cons c cs ih =>
      rw [cutAll]
      by_cases hc : c = sep
      · rw [if_pos hc, List.length_cons, ih, hc, List.count_cons_self]
      · rw [if_neg hc, List.count_cons_of_ne hc, ← ih]
        rcases hp : cutAll sep cs with _ | ⟨piece, pieces⟩
        · exact absurd hp (cutAll_ne_nil sep cs)
        · rfl

theorem length_split (s : String) : (split sep s).length = s.toList.count sep + 1 := by
  rw [split, List.length_map, length_cutAll]

theorem toList_intercalate (pieces : List String) :
    ((String.singleton sep).intercalate pieces).toList
      = joinWith sep (pieces.map String.toList) := by
  induction pieces with
  | nil => rfl
  | cons piece pieces ih =>
      cases pieces with
      | nil => rw [String.intercalate_singleton, List.map_singleton, joinWith]
      | cons next pieces =>
          rw [String.intercalate_cons_cons, String.toList_append, String.toList_append, ih,
            String.toList_singleton, List.append_assoc, List.singleton_append]
          rfl

theorem toList_eq_joinWith (s : String) :
    s.toList = joinWith sep ((split sep s).map String.toList) := by
  have hpieces : (split sep s).map String.toList = cutAll sep s.toList := by
    rw [split, List.map_map]
    exact List.map_congr_left (fun cs _ => String.toList_ofList) |>.trans (List.map_id _)
  rw [hpieces, joinWith_cutAll]

/-- A text is its pieces put together. -/
theorem intercalate_split (s : String) : (String.singleton sep).intercalate (split sep s) = s :=
  String.toList_inj.1 ((toList_intercalate _).trans (toList_eq_joinWith s).symm)

/-- Putting pieces together adds no character but the separator. -/
theorem mem_intercalate_iff {c : Char} (hc : c ≠ sep) {pieces : List String} :
    c ∈ ((String.singleton sep).intercalate pieces).toList ↔ ∃ piece ∈ pieces, c ∈ piece.toList := by
  induction pieces with
  | nil => exact iff_of_false List.not_mem_nil fun ⟨_, hpiece, _⟩ => List.not_mem_nil hpiece
  | cons piece pieces ih =>
      by_cases hnil : pieces = []
      · rw [hnil, String.intercalate_singleton]
        simp only [List.mem_singleton, exists_eq_left]
      · have hsep : c ∉ (String.singleton sep).toList := by
          rw [String.toList_singleton, List.mem_singleton]
          exact hc
        rw [String.intercalate_cons_of_ne_nil hnil, String.toList_append, String.toList_append,
          List.mem_append, List.mem_append, ih, or_iff_left hsep]
        simp only [List.mem_cons, exists_eq_or_imp]

theorem mem_iff_of_split {c : Char} (hc : c ≠ sep) {s : String} :
    c ∈ s.toList ↔ ∃ piece ∈ split sep s, c ∈ piece.toList := by
  rw [← mem_intercalate_iff hc, intercalate_split]

end Text

end UtilityCss
