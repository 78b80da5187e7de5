import UtilityCss.Text.Cut

/-!
# Words in Text

What is left of a text when words are taken off its ends.

A word is taken off the start of a text as often as it stands there, and characters of a class
are taken off the end. What was taken off can be put back, and what is put at the ends of a text
is taken off again, unless the text itself starts with the word.

## Theorems

* `Text.hasWord_append`: A word is found whatever stands around it.
* `Text.exists_eq_dropWords`: What is taken off the start is some copies of the word.
* `Text.dropWords_append`: Copies of a word are taken off again.
* `Text.dropEndWhile_append`: So are characters of a class at the end.
-/

namespace UtilityCss

namespace Text

theorem hasWord_append {w : Char} {ws : List Char} (before after : List Char) :
    hasWord (w :: ws) (before ++ (w :: ws ++ after)) = true := by
  induction before with
  | nil =>
      rw [List.nil_append, List.cons_append, hasWord,
        dropWord?_eq_some_iff.2 (@List.cons_append _ w ws after).symm]
      rfl
  | cons c before ih => rw [List.cons_append, hasWord, ih, Bool.or_true]

theorem hasWord_tail {word : List Char} {c : Char} {cs : List Char}
    (h : hasWord word (c :: cs) = false) : hasWord word cs = false := by
  rw [hasWord, Bool.or_eq_false_iff] at h
  exact h.2

theorem exists_eq_dropWords_go (word : List Char) (fuel : Nat) (cs : List Char) :
    ∃ n, cs = (List.replicate n word).flatten ++ dropWords.go word fuel cs := by
  induction fuel generalizing cs with
  | zero => exact ⟨0, rfl⟩
  | succ fuel ih =>
      rw [dropWords.go]
      split
      · next rest hrest =>
          rcases ih rest with ⟨n, hn⟩
          refine ⟨n + 1, ?_⟩
          rw [List.replicate_succ, List.flatten_cons, List.append_assoc, ← hn]
          exact dropWord?_eq_some_iff.1 hrest
      · exact ⟨0, rfl⟩

/-- What is taken off the start of a text is some copies of the word. -/
theorem exists_eq_dropWords (word cs : List Char) :
    ∃ n, cs = (List.replicate n word).flatten ++ dropWords word cs :=
  exists_eq_dropWords_go word cs.length cs

section

variable {word rest : List Char} (hrest : dropWord? word rest = none)
include hrest

theorem dropWords_go_append {n fuel : Nat} (hn : n ≤ fuel) :
    dropWords.go word fuel ((List.replicate n word).flatten ++ rest) = rest := by
  -- Each word takes one step, and there are steps for all of them.
  induction n generalizing fuel with
  | zero =>
      rw [List.replicate_zero, List.flatten_nil, List.nil_append]
      cases fuel with
      | zero => rfl
      | succ fuel => rw [dropWords.go, hrest]
  | succ n ih =>
      cases fuel with
      | zero => exact absurd hn (Nat.not_succ_le_zero n)
      | succ fuel =>
          have hword : (List.replicate (n + 1) word).flatten ++ rest
              = word ++ ((List.replicate n word).flatten ++ rest) := by
            rw [List.replicate_succ, List.flatten_cons, List.append_assoc]
          rw [hword, dropWords.go, dropWord?_eq_some_iff.2 rfl]
          exact ih (Nat.le_of_succ_le_succ hn)

/-- Copies of a word in front of a text that does not start with it are taken off. -/
theorem dropWords_append (hword : word ≠ []) (n : Nat) :
    dropWords word ((List.replicate n word).flatten ++ rest) = rest := by
  refine dropWords_go_append hrest ?_
  rw [List.length_append, List.length_flatten, List.map_replicate, List.sum_replicate_nat]
  calc
    n ≤ n * word.length := Nat.le_mul_of_pos_right n (List.length_pos_iff.2 hword)
    _ ≤ n * word.length + rest.length := Nat.le_add_right _ _

end

theorem dropEndWhile_append {p : Char → Bool} {more : List Char} (h : ∀ c ∈ more, p c = true)
    (cs : List Char) : dropEndWhile p (cs ++ more) = dropEndWhile p cs := by
  rw [dropEndWhile, List.reverse_append,
    List.dropWhile_append_of_pos fun c hc => h c (List.mem_reverse.1 hc), dropEndWhile]

end Text

end UtilityCss
