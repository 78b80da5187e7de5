import UtilityCss.Proofs.Text.Contained
import UtilityCss.Text.Blank

/-!
# Tidy Text

Text that survives being written between blanks and read back.

A writer of stylesheets puts blanks around the texts that it writes, and a reader
ignores blanks around the pieces that it finds. The two fit together for a text
that has something in it and starts and ends with what is not blank: trimming
takes off what the writer added and nothing else.

## Main definitions

* `Text.IsTidy`: The text is contained, not empty, and has no outer blanks.

## Theorems

* `trimBlank_append`: Blanks in front are trimmed.
* `trimBlank_between`: Trimming a tidy text between blanks gives it back.
-/

namespace UtilityCss

namespace Text

/-- The text holds no brace and no semicolon, and it starts and ends with what is
    not blank. -/
structure IsTidy (s : String) : Prop where
  contained : IsContained s
  nonempty : s.toList ≠ []
  first : ∀ c ∈ s.toList.head?, isBlank c = false
  last : ∀ c ∈ s.toList.getLast?, isBlank c = false

instance (s : String) : Decidable (IsTidy s) :=
  decidable_of_iff
    (IsContained s ∧ s.toList ≠ [] ∧ s.toList.head?.all (fun c => !isBlank c) = true ∧
      s.toList.getLast?.all (fun c => !isBlank c) = true) <| by
    simp only [Option.all_eq_true, Bool.not_eq_true']
    exact ⟨fun h => ⟨h.1, h.2.1, h.2.2.1, h.2.2.2⟩,
      fun h => ⟨h.contained, h.nonempty, h.first, h.last⟩⟩

theorem not_mem_blockMarks_of_isBlank {c : Char} (h : isBlank c = true) : c ∉ blockMarks :=
  not_mem_of_all_not (by decide) h

theorem dropBlank_append {blanks : List Char} (h : blanks.all isBlank = true)
    (cs : List Char) : dropBlank (blanks ++ cs) = dropBlank cs := by
  unfold dropBlank
  exact List.dropWhile_append_of_pos (List.all_eq_true.1 h)

theorem dropBlank_eq_self {cs : List Char} (h : ∀ c ∈ cs.head?, isBlank c = false) :
    dropBlank cs = cs := by
  unfold dropBlank
  cases cs with
  | nil => rfl
  | cons c cs =>
      have hc : ¬isBlank c = true := by
        rw [h c rfl]
        exact Bool.false_ne_true
      rw [List.dropWhile_cons_of_neg hc]

theorem trimBlank_append {blanks : List Char} (h : blanks.all isBlank = true)
    (cs : List Char) : trimBlank (blanks ++ cs) = trimBlank cs := by
  unfold trimBlank
  rw [dropBlank_append h]

/-- Trimming a tidy text between blanks gives it back. -/
theorem trimBlank_between {s : String} (hs : IsTidy s) {before after : List Char}
    (hbefore : before.all isBlank = true) (hafter : after.all isBlank = true) :
    trimBlank (before ++ s.toList ++ after) = s.toList := by
  -- The first character of the text stops the trimming in front.
  have hfront : dropBlank (s.toList ++ after) = s.toList ++ after := by
    refine dropBlank_eq_self fun c hc => ?_
    rw [Option.mem_def, List.head?_append] at hc
    rcases hhead : s.toList.head? with _ | d
    · exact absurd (List.head?_eq_none_iff.1 hhead) hs.nonempty
    · rw [hhead, Option.some_or] at hc
      exact hs.first c (hhead.trans hc)
  -- Behind, the text is trimmed in reverse, and its last character comes first.
  have hback : dropBlank s.toList.reverse = s.toList.reverse := by
    refine dropBlank_eq_self fun c hc => ?_
    rw [Option.mem_def, List.head?_reverse] at hc
    exact hs.last c hc
  have hreverse : after.reverse.all isBlank = true := by
    rw [List.all_reverse]
    exact hafter
  rw [List.append_assoc, trimBlank_append hbefore]
  unfold trimBlank
  rw [hfront, List.reverse_append, dropBlank_append hreverse, hback, List.reverse_reverse]

-- A tidy text is not blank, whatever stands around it.
theorem all_isBlank_eq_false {s : String} (hs : IsTidy s) (before after : List Char) :
    (before ++ s.toList ++ after).all isBlank = false := by
  rcases hcs : s.toList with _ | ⟨c, cs⟩
  · exact absurd hcs hs.nonempty
  · have hc : isBlank c = false := hs.first c (by rw [hcs, List.head?_cons, Option.mem_def])
    rw [List.all_append, List.all_append, List.all_cons, hc, Bool.false_and, Bool.and_false,
      Bool.false_and]

end Text

end UtilityCss
