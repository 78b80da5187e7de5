import UtilityCss.Proofs.Token.Parts

/-!
# Readings of a Core

What the readings of a core say about its form.

A reading cuts a core at a hyphen into the stem of a utility and a key. Scanning
draws no such line. It sees one stem with a tail, and where a utility ends and its key
begins is not its concern. The two views meet in `isCore_append_iff`: behind a name
that scanning takes for a stem, scanning takes the whole core exactly if it takes the
key, that is if the key is made of the characters of a stem and ends in nothing more
than a slash with digits.

Keys in brackets are a case of their own. A core that ends in a bracket has one
reading, and its key is the bracket.

## Main definitions

* `IsKey`: A key that scanning takes behind a stem.

## Theorems

* `mem_hyphenCuts`, `eq_of_cutBracket`: What cuts are made of.
* `of_mem_readings`: A reading is a core or a stem with a key.
* `isCore_of_isStem`, `isCore_bracket`: Cores without key and with a bracket.
* `isCore_append_iff`: Cores with another key.
-/

namespace UtilityCss

namespace Token

/-- A key that scanning takes behind a stem: letters, digits, dots and hyphens, and then
    nothing or a slash with digits. -/
def IsKey (cs : List Char) : Prop :=
  ∃ front tail, front.all isStemChar = true ∧ Tail.IsValid tail ∧ tail.hyphen = [] ∧
    cs = front ++ tail.text

/-! ### Cuts -/

theorem mem_hyphenCuts {cs a b : List Char} (h : (a, b) ∈ hyphenCuts cs) :
    cs = a ++ '-' :: b := by
  induction cs generalizing a b with
  | nil => exact absurd h List.not_mem_nil
  | cons c cs ih =>
      -- A cut further to the right has the character on its left side.
      have hlater : (a, b) ∈ (hyphenCuts cs).map (fun cut => (c :: cut.1, cut.2)) →
          c :: cs = a ++ '-' :: b := by
        intro hmem
        rcases List.mem_map.1 hmem with ⟨⟨a', b'⟩, hcut, heq⟩
        rcases Prod.mk.inj heq with ⟨rfl, rfl⟩
        rw [ih hcut, List.cons_append]
      rw [hyphenCuts] at h
      split at h
      · next hc =>
          rcases List.mem_cons.1 h with heq | h
          · rcases Prod.mk.inj heq with ⟨rfl, rfl⟩
            rw [hc, List.nil_append]
          · exact hlater h
      · exact hlater h

theorem eq_of_cutBracket {cs a b : List Char} (h : cutBracket cs = some (a, b)) :
    cs = a ++ '-' :: b ∧ b.head? = some '[' := by
  induction cs generalizing a b with
  | nil => simp only [cutBracket, reduceCtorEq] at h
  | cons c cs ih =>
      simp only [cutBracket] at h
      split at h
      · rcases Prod.mk.inj (Option.some.inj h) with ⟨rfl, rfl⟩
        exact ⟨rfl, rfl⟩
      · rcases Option.map_eq_some_iff.1 h with ⟨⟨a', b'⟩, hcut, heq⟩
        rcases Prod.mk.inj heq with ⟨rfl, rfl⟩
        rcases ih hcut with ⟨hcs, hhead⟩
        exact ⟨by rw [hcs, List.cons_append], hhead⟩

/-- A reading is the whole core, or a stem and a key around a hyphen. A key that ends in
    a bracket starts with one. -/
theorem of_mem_readings {core : String} {r : Reading} (h : r ∈ readings core) :
    (r.value = none ∧ r.stem = core) ∨
      ∃ key, r.value = some key ∧ key.toList ≠ [] ∧
        core.toList = r.stem.toList ++ '-' :: key.toList ∧
        (key.toList.getLast? = some ']' → key.toList.head? = some '[') := by
  unfold readings at h
  simp only at h
  -- A core in brackets is cut once at most, and any other one at each of its hyphens.
  split at h
  · split at h
    · next stem value hcut =>
        rcases eq_of_cutBracket hcut with ⟨hcore, hhead⟩
        rw [List.mem_singleton.1 h]
        refine Or.inr ⟨_, rfl, ?_, ?_, ?_⟩
        · rw [String.toList_ofList]
          rintro rfl
          simp only [List.head?_nil, reduceCtorEq] at hhead
        · rw [String.toList_ofList, String.toList_ofList]
          exact hcore
        · rw [String.toList_ofList]
          exact fun _ => hhead
    · exact absurd h List.not_mem_nil
  · next hlast =>
      rcases List.mem_cons.1 h with rfl | h
      · exact Or.inl ⟨rfl, rfl⟩
      · rcases List.mem_map.1 h with ⟨⟨stem, key⟩, hmem, rfl⟩
        rcases List.mem_filter.1 hmem with ⟨hcut, htest⟩
        have hcore := mem_hyphenCuts (List.mem_reverse.1 hcut)
        simp only [Bool.and_eq_true, Bool.not_eq_true', List.isEmpty_eq_false_iff] at htest
        refine Or.inr ⟨_, rfl, ?_, ?_, ?_⟩
        · rw [String.toList_ofList]
          exact htest.2
        · rw [String.toList_ofList, String.toList_ofList]
          exact hcore
        · -- The key ends where the core does, and that is no bracket.
          rw [String.toList_ofList]
          intro hkey
          refine absurd ?_ hlast
          rw [hcore, List.append_cons, List.getLast?_append, hkey, Option.some_or]

/-! ### Cores -/

theorem isCore_of_isStem {cs : List Char} (h : isStem cs = true) : IsCore cs :=
  ⟨cs, .none, h, trivial, (List.append_nil cs).symm⟩

theorem isStem_append {stem cs : List Char} (h : isStem stem = true)
    (hcs : ∀ c ∈ cs, isStemChar c = true) : isStem (stem ++ cs) = true := by
  cases stem with
  | nil => exact absurd h Bool.false_ne_true
  | cons c stem =>
      rw [isStem, Bool.and_eq_true] at h
      rw [List.cons_append, isStem, h.1, Bool.true_and, List.all_append, h.2, Bool.true_and]
      exact List.all_eq_true.2 hcs

theorem isCore_bracket {stem inner : List Char} (h : isStem stem = true) (hne : inner ≠ [])
    (hinner : inner.all isInnerChar = true) :
    IsCore (stem ++ '-' :: '[' :: (inner ++ [']'])) :=
  ⟨stem, .bracket inner, h, ⟨hne, hinner⟩, rfl⟩

-- Without a bracket the tail starts where the characters of a stem end.
theorem dropWhile_append_text {stem : List Char} (hstem : ∀ c ∈ stem, isStemChar c = true)
    {tail : Tail} (htail : tail.hyphen = []) :
    (stem ++ tail.text).dropWhile isStemChar = tail.text := by
  rw [List.dropWhile_append_of_pos hstem]
  cases tail with
  | none => rw [Tail.text, List.dropWhile_nil]
  | slash digits => rw [Tail.text, List.dropWhile_cons_of_neg (by decide)]
  | bracket value => simp only [Tail.hyphen, reduceCtorEq] at htail

-- A text that ends in something else than a bracket has no bracket for a tail.
theorem hyphen_eq_nil {xs ys stem : List Char} {tail : Tail} (hys : ys.getLast? ≠ some ']')
    (hxs : xs.getLast? ≠ some ']') (h : xs ++ ys = stem ++ tail.text) : tail.hyphen = [] := by
  cases tail with
  | none => rfl
  | slash digits => rfl
  | bracket value =>
      have hlast : (stem ++ Tail.text (.bracket value)).getLast? = some ']' := by
        rw [Tail.text, List.append_cons, List.append_cons, ← List.append_assoc,
          List.getLast?_concat]
      rw [← h, List.getLast?_append, Option.or_eq_some_iff] at hlast
      rcases hlast with hlast | ⟨-, hlast⟩
      · exact absurd hlast hys
      · exact absurd hlast hxs

/-- Behind a stem and a hyphen scanning takes a core exactly if it takes the key. -/
theorem isCore_append_iff {stem key : List Char} (h : isStem stem = true)
    (hlast : key.getLast? ≠ some ']') : IsCore (stem ++ '-' :: key) ↔ IsKey key := by
  have hfront : ∀ c ∈ stem ++ ['-'], isStemChar c = true := by
    intro c hc
    rcases List.mem_append.1 hc with hc | hc
    · exact isStemChar_of_mem_isStem h hc
    · rw [List.mem_singleton.1 hc]
      decide
  constructor
  · rintro ⟨stem', tail, hstem', htail, hcore⟩
    rw [List.append_cons] at hcore
    have hhyphen : (stem ++ ['-']).getLast? ≠ some ']' := by
      rw [List.getLast?_concat]
      decide
    -- The tail is no bracket, so the stem of the core is what can stand in one.
    have hnone := hyphen_eq_nil hlast hhyphen hcore
    have hdrop := dropWhile_append_text (fun c hc => isStemChar_of_mem_isStem hstem' hc) hnone
    rw [← hcore, List.dropWhile_append_of_pos hfront] at hdrop
    refine ⟨key.takeWhile isStemChar, tail, List.all_takeWhile, htail, hnone, ?_⟩
    rw [← hdrop, List.takeWhile_append_dropWhile]
  · rintro ⟨front, tail, hkey, htail, -, rfl⟩
    refine ⟨stem ++ '-' :: front, tail, isStem_append h fun c hc => ?_, htail, ?_⟩
    · rcases List.mem_cons.1 hc with rfl | hc
      · decide
      · exact List.all_eq_true.1 hkey c hc
    · rw [List.append_assoc, List.cons_append]

end Token

end UtilityCss
