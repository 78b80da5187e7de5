/-!
# Cutting Text

Cutting a list of characters at a separator, and taking a word off either
end of it.

Tokens, globs, paths and fractions are all read by cutting at one character.
The cuts are defined on lists, where "nothing is lost" is an equation: the
pieces joined by the separator are the text.

## Main definitions

* `cutFirst`: Both sides of the first separator.
* `cutAll`: The pieces between the separators.
* `joinWith`: Pieces joined by a separator.
* `dropWord?`: What follows a word at the start.
* `dropLastWord?`: What precedes a word at the end.

## Theorems

* `eq_of_cutFirst`: The two sides and the separator make up the text.
* `cutFirst_append`: A text is cut at the first separator in it.
* `dropWord?_eq_some_iff`, `dropLastWord?_eq_some_iff`: Taking a word off undoes
  putting it there.
* `joinWith_cutAll`: Cutting everywhere and joining gives the text back.
* `cutAll_ne_nil`: A text has at least one piece.
-/

namespace UtilityCss

namespace Text

/-- Both sides of the first separator, or `none` without one. -/
def cutFirst (sep : Char) : List Char → Option (List Char × List Char)
  | [] => none
  | c :: cs =>
    if c = sep then some ([], cs)
    else (cutFirst sep cs).map fun (a, b) => (c :: a, b)

/-- The pieces between the separators, in order. A text without the separator
    is one piece, so there is always at least one. -/
def cutAll (sep : Char) : List Char → List (List Char)
  | [] => [[]]
  | c :: cs =>
    if c = sep then [] :: cutAll sep cs
    else match cutAll sep cs with
      | [] => [[c]]
      | piece :: pieces => (c :: piece) :: pieces

/-- Pieces joined by a separator. -/
def joinWith (sep : Char) : List (List Char) → List Char
  | [] => []
  | [piece] => piece
  | piece :: pieces => piece ++ sep :: joinWith sep pieces

/-- What follows `word` at the start of the text. -/
def dropWord? : List Char → List Char → Option (List Char)
  | [], cs => some cs
  | _ :: _, [] => none
  | w :: ws, c :: cs => if w = c then dropWord? ws cs else none

/-- What precedes `word` at the end of the text. -/
def dropLastWord? (word cs : List Char) : Option (List Char) :=
  (dropWord? word.reverse cs.reverse).map List.reverse

/-- `word` occurs somewhere in the text. -/
def hasWord (word : List Char) : List Char → Bool
  | [] => word.isEmpty
  | c :: cs => (dropWord? word (c :: cs)).isSome || hasWord word cs

/-- The text less every copy of `word` at its start. -/
def dropWords (word : List Char) (cs : List Char) : List Char :=
  go cs.length cs
where
  /-- One copy is taken off in each round; the text's length bounds them. -/
  go : Nat → List Char → List Char
    | 0, cs => cs
    | fuel + 1, cs =>
      match dropWord? word cs with
      | some rest => go fuel rest
      | none => cs

/-- The text less every trailing character of a class. -/
def dropEndWhile (p : Char → Bool) (cs : List Char) : List Char :=
  (cs.reverse.dropWhile p).reverse

/-- The pieces of a text between separators. -/
def split (sep : Char) (s : String) : List String :=
  (cutAll sep s.toList).map String.ofList

/-- The two sides and the separator make up the text. -/
theorem eq_of_cutFirst {sep : Char} {cs a b : List Char}
    (h : cutFirst sep cs = some (a, b)) : cs = a ++ sep :: b ∧ sep ∉ a := by
  induction cs generalizing a with
  | nil => simp only [cutFirst, reduceCtorEq] at h
  | cons c cs ih =>
    rw [cutFirst] at h
    split at h
    · next hc =>
      simp only [Option.some.injEq, Prod.mk.injEq] at h
      obtain ⟨rfl, rfl⟩ := h
      simp only [hc, List.nil_append, List.not_mem_nil, not_false_eq_true, and_self]
    · next hc =>
      obtain ⟨⟨a', b'⟩, hcut, heq⟩ := Option.map_eq_some_iff.1 h
      simp only [Prod.mk.injEq] at heq
      obtain ⟨rfl, rfl⟩ := heq
      obtain ⟨hcs, hsep⟩ := ih hcut
      refine ⟨by rw [hcs, List.cons_append], ?_⟩
      intro hmem
      rcases List.mem_cons.1 hmem with heq | hmem
      · exact hc heq.symm
      · exact hsep hmem

/-- A text is cut at the first separator in it. -/
theorem cutFirst_append {sep : Char} {a : List Char} (h : sep ∉ a) (b : List Char) :
    cutFirst sep (a ++ sep :: b) = some (a, b) := by
  induction a with
  | nil => rw [List.nil_append, cutFirst, if_pos rfl]
  | cons c a ih =>
    simp only [List.mem_cons, not_or] at h
    rw [List.cons_append, cutFirst, if_neg (Ne.symm h.1), ih h.2, Option.map_some]

/-- Taking a word off the start undoes putting it there. -/
theorem dropWord?_eq_some_iff {word cs rest : List Char} :
    dropWord? word cs = some rest ↔ cs = word ++ rest := by
  induction word generalizing cs with
  | nil => rw [dropWord?, Option.some.injEq, List.nil_append]
  | cons w word ih =>
    cases cs with
    | nil => simp only [dropWord?, reduceCtorEq, List.cons_append]
    | cons c cs =>
      rw [dropWord?, List.cons_append, List.cons.injEq]
      split
      · next heq => rw [ih, heq, eq_self, true_and]
      · next hne => exact ⟨fun h => absurd h (by simp only [reduceCtorEq, not_false_eq_true]),
          fun h => absurd h.1.symm hne⟩

/-- Taking a word off the end undoes putting it there. -/
theorem dropLastWord?_eq_some_iff {word cs rest : List Char} :
    dropLastWord? word cs = some rest ↔ cs = rest ++ word := by
  rw [dropLastWord?, Option.map_eq_some_iff]
  constructor
  · rintro ⟨back, hback, rfl⟩
    rw [dropWord?_eq_some_iff] at hback
    rw [← List.reverse_inj, hback, List.reverse_append, List.reverse_reverse]
  · rintro rfl
    exact ⟨rest.reverse, dropWord?_eq_some_iff.2 List.reverse_append, List.reverse_reverse rest⟩

/-- A text has at least one piece. -/
theorem cutAll_ne_nil (sep : Char) (cs : List Char) : cutAll sep cs ≠ [] := by
  cases cs with
  | nil => simp only [cutAll, ne_eq, List.cons_ne_self, not_false_eq_true]
  | cons c cs =>
    rw [cutAll]
    split
    · exact List.cons_ne_nil _ _
    · split <;> exact List.cons_ne_nil _ _

/-- Cutting everywhere and joining gives the text back. -/
theorem joinWith_cutAll (sep : Char) (cs : List Char) :
    joinWith sep (cutAll sep cs) = cs := by
  induction cs with
  | nil => rfl
  | cons c cs ih =>
    rw [cutAll]
    split
    · next hc =>
      rcases hp : cutAll sep cs with _ | ⟨piece, pieces⟩
      · exact absurd hp (cutAll_ne_nil sep cs)
      · rw [joinWith, ← hp, ih, hc, List.nil_append]
        exact List.cons_ne_nil _ _
    · rcases hp : cutAll sep cs with _ | ⟨piece, pieces⟩
      · exact absurd hp (cutAll_ne_nil sep cs)
      · rw [hp] at ih
        cases pieces with
        | nil => simpa only [joinWith, List.cons.injEq, true_and] using ih
        | cons q qs =>
          simp only [joinWith, List.cons_append, List.cons.injEq, true_and] at ih ⊢
          exact ih

end Text

end UtilityCss
