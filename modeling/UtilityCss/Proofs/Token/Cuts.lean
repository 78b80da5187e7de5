import Mathlib.Data.List.Basic
import UtilityCss.Proofs.Token.Readings

/-!
# All Readings of a Core

The readings of a core, said without the search that finds them.

Every reading is a way to divide the core: no cut at all, or a cut at a hyphen with
text on both sides. A core that ends in a bracket leaves no choice, it is cut at the
first hyphen that a bracket follows. `Reads` says so of one reading alone, and
`mem_readings_iff` that the list of readings has exactly these.

The order of the list matters as much as what is in it, since the first reading that
resolves is taken. It goes from long names to short ones, and strictly: two readings
never have names of one length, because a name is a beginning of the core.

A core that starts with a hyphen could be cut in front of a bracket without a name. No
token has such a core, and the hypothesis below excludes it.

## Main definitions

* `Reads`: A way to read a core.

## Theorems

* `mem_hyphenCuts_iff`, `pairwise_hyphenCuts`: Cuts at hyphens, shortest left side first.
* `cutBracket_eq_some_iff`: The cut in front of the first bracket behind a hyphen.
* `mem_readings_iff`: The readings of a core are all ways to read it.
* `pairwise_readings`: Readings are listed from long names to short ones.
-/

namespace UtilityCss

namespace Token

/-- A way to read a core: as a name alone, or as a name and a value around a hyphen. A
    core that ends in a bracket is read in one way, by its first hyphen with a bracket. -/
inductive Reads (core : String) : Reading → Prop where
  /-- The whole core is a name. -/
  | whole (hopen : core.toList.getLast? ≠ some ']') : Reads core ⟨core, none⟩
  /-- A hyphen divides the core. -/
  | cut (stem value : String) (hopen : core.toList.getLast? ≠ some ']')
      (hcore : core.toList = stem.toList ++ '-' :: value.toList)
      (hstem : stem.toList ≠ []) (hvalue : value.toList ≠ []) : Reads core ⟨stem, some value⟩
  /-- The first hyphen with a bracket behind it divides the core. -/
  | bracket (stem value : String) (hclosed : core.toList.getLast? = some ']')
      (hcore : core.toList = stem.toList ++ '-' :: value.toList)
      (hstem : stem.toList ≠ []) (hvalue : value.toList.head? = some '[')
      (hfirst : ∀ front back, core.toList = front ++ '-' :: '[' :: back →
        stem.toList.length ≤ front.length) : Reads core ⟨stem, some value⟩

/-! ### Cuts at hyphens -/

theorem mem_hyphenCuts_append (a b : List Char) : (a, b) ∈ hyphenCuts (a ++ '-' :: b) := by
  induction a with
  | nil =>
      rw [List.nil_append, hyphenCuts, if_pos rfl]
      exact List.mem_cons_self
  | cons c a ih =>
      have hlater : (c :: a, b) ∈ (hyphenCuts (a ++ '-' :: b)).map
          (fun cut => (c :: cut.1, cut.2)) := List.mem_map_of_mem ih
      rw [List.cons_append, hyphenCuts]
      split
      · exact List.mem_cons_of_mem _ hlater
      · exact hlater

/-- The cuts are all pairs of texts around a hyphen. -/
theorem mem_hyphenCuts_iff {cs a b : List Char} :
    (a, b) ∈ hyphenCuts cs ↔ cs = a ++ '-' :: b := by
  refine ⟨mem_hyphenCuts, ?_⟩
  rintro rfl
  exact mem_hyphenCuts_append a b

theorem pairwise_hyphenCuts (cs : List Char) :
    (hyphenCuts cs).Pairwise fun x y => x.1.length < y.1.length := by
  induction cs with
  | nil => exact List.Pairwise.nil
  | cons c cs ih =>
      have hlater : ((hyphenCuts cs).map fun cut => (c :: cut.1, cut.2)).Pairwise
          fun x y => x.1.length < y.1.length :=
        List.pairwise_map.2 (ih.imp fun hlt => Nat.succ_lt_succ hlt)
      rw [hyphenCuts]
      split
      -- A cut at the first character has nothing on its left side.
      · refine List.pairwise_cons.2 ⟨fun cut hcut => ?_, hlater⟩
        rcases List.mem_map.1 hcut with ⟨later, -, rfl⟩
        exact Nat.succ_pos _
      · exact hlater

/-! ### The cut in front of a bracket -/

theorem length_le_of_cutBracket {cs a b : List Char} (h : cutBracket cs = some (a, b))
    {front back : List Char} (hcs : cs = front ++ '-' :: '[' :: back) :
    a.length ≤ front.length := by
  induction cs generalizing a b front with
  | nil => simp only [cutBracket, reduceCtorEq] at h
  | cons c cs ih =>
      simp only [cutBracket] at h
      -- The cut is made at the first bracket behind a hyphen, so none is further in front.
      split at h
      · rw [← (Prod.mk.inj (Option.some.inj h)).1]
        exact Nat.zero_le _
      · next hnot =>
          rcases Option.map_eq_some_iff.1 h with ⟨⟨a', b'⟩, hcut, heq⟩
          rcases Prod.mk.inj heq with ⟨rfl, rfl⟩
          cases front with
          | nil =>
              rcases List.cons.inj hcs with ⟨rfl, rfl⟩
              exact absurd rfl (hnot back rfl)
          | cons d front =>
              rcases List.cons.inj hcs with ⟨-, htail⟩
              exact Nat.succ_le_succ (ih hcut htail)

theorem exists_cutBracket (front back : List Char) :
    ∃ a b, cutBracket (front ++ '-' :: '[' :: back) = some (a, b) := by
  induction front with
  | nil => exact ⟨[], '[' :: back, rfl⟩
  | cons c front ih =>
      rcases ih with ⟨a, b, hcut⟩
      rw [List.cons_append]
      simp only [cutBracket]
      split
      · exact ⟨_, _, rfl⟩
      · rw [hcut]
        exact ⟨_, b, rfl⟩

/-- The cut in front of a bracket is at the first hyphen that a bracket follows. -/
theorem cutBracket_eq_some_iff {cs a b : List Char} :
    cutBracket cs = some (a, b) ↔ cs = a ++ '-' :: b ∧ b.head? = some '[' ∧
      ∀ front back, cs = front ++ '-' :: '[' :: back → a.length ≤ front.length := by
  constructor
  · intro h
    rcases eq_of_cutBracket h with ⟨hcs, hhead⟩
    exact ⟨hcs, hhead, fun front back hfront => length_le_of_cutBracket h hfront⟩
  · rintro ⟨hcs, hhead, hfirst⟩
    rcases List.head?_eq_some_iff.1 hhead with ⟨back, rfl⟩
    rcases exists_cutBracket a back with ⟨a', b', hcut⟩
    rw [← hcs] at hcut
    rcases eq_of_cutBracket hcut with ⟨hcs', hhead'⟩
    rcases List.head?_eq_some_iff.1 hhead' with ⟨back', rfl⟩
    -- Both cuts are the first one, so they are in one place.
    have hlength : a.length = a'.length :=
      Nat.le_antisymm (hfirst a' back' hcs') (length_le_of_cutBracket hcut hcs)
    rcases List.append_inj (hcs.symm.trans hcs') hlength with ⟨rfl, hback⟩
    rw [hcut, (List.cons.inj hback).2]

/-! ### Readings -/

section

variable {core : String}

theorem mem_readings_of_open (h : core.toList.getLast? ≠ some ']') {r : Reading} :
    r ∈ readings core ↔ Reads core r := by
  simp only [readings, if_neg h, List.mem_cons, List.mem_map, List.mem_filter, List.mem_reverse,
    Bool.and_eq_true, Bool.not_eq_true', List.isEmpty_eq_false_iff, Prod.exists,
    mem_hyphenCuts_iff]
  constructor
  · rintro (rfl | ⟨stem, value, ⟨hcore, hstem, hvalue⟩, rfl⟩)
    · exact .whole h
    · refine .cut _ _ h ?_ ?_ ?_
      · rwa [String.toList_ofList, String.toList_ofList]
      · rwa [String.toList_ofList]
      · rwa [String.toList_ofList]
  · intro hreads
    cases hreads with
    | whole => exact Or.inl rfl
    | cut stem value _ hcore hstem hvalue =>
        refine Or.inr ⟨stem.toList, value.toList, ⟨hcore, hstem, hvalue⟩, ?_⟩
        rw [String.ofList_toList, String.ofList_toList]
    | bracket _ _ hclosed => exact absurd hclosed h

theorem mem_readings_of_closed (h : core.toList.getLast? = some ']')
    (hhead : core.toList.head? ≠ some '-') {r : Reading} :
    r ∈ readings core ↔ Reads core r := by
  have hmem : r ∈ readings core ↔ ∃ stem value, cutBracket core.toList = some (stem, value) ∧
      r = ⟨String.ofList stem, some (String.ofList value)⟩ := by
    simp only [readings, if_pos h]
    split
    · next stem value hcut =>
        rw [List.mem_singleton, hcut]
        constructor
        · rintro rfl
          exact ⟨stem, value, rfl, rfl⟩
        · rintro ⟨stem', value', heq, rfl⟩
          rcases Prod.mk.inj (Option.some.inj heq) with ⟨rfl, rfl⟩
          rfl
    · next hcut =>
        rw [hcut]
        simp only [List.not_mem_nil, reduceCtorEq, false_and, exists_false]
  -- A cut at the first bracket behind a hyphen is the one reading, if there is such a
  -- bracket.
  rw [hmem]
  constructor
  · rintro ⟨stem, value, hcut, rfl⟩
    rcases cutBracket_eq_some_iff.1 hcut with ⟨hcore, hvalue, hfirst⟩
    refine .bracket _ _ h ?_ ?_ ?_ ?_
    · rwa [String.toList_ofList, String.toList_ofList]
    · -- Without a name the core would start with the hyphen.
      rw [String.toList_ofList]
      rintro rfl
      rw [hcore] at hhead
      exact hhead rfl
    · rwa [String.toList_ofList]
    · rwa [String.toList_ofList]
  · intro hreads
    cases hreads with
    | whole hopen => exact absurd h hopen
    | cut _ _ hopen => exact absurd h hopen
    | bracket stem value _ hcore _ hvalue hfirst =>
        refine ⟨stem.toList, value.toList,
          cutBracket_eq_some_iff.2 ⟨hcore, hvalue, hfirst⟩, ?_⟩
        rw [String.ofList_toList, String.ofList_toList]

/-- The readings of a core are all ways to read it. -/
theorem mem_readings_iff (hhead : core.toList.head? ≠ some '-') {r : Reading} :
    r ∈ readings core ↔ Reads core r := by
  by_cases h : core.toList.getLast? = some ']'
  · exact mem_readings_of_closed h hhead
  · exact mem_readings_of_open h

/-- Readings are listed from long names to short ones, and no two of them have names of
    one length. -/
theorem pairwise_readings (core : String) :
    (readings core).Pairwise fun r r' => r'.stem.toList.length < r.stem.toList.length := by
  unfold readings
  simp only
  split
  · split
    · exact List.pairwise_singleton _ _
    · exact List.Pairwise.nil
  · refine List.pairwise_cons.2 ⟨fun r hr => ?_, ?_⟩
    -- A cut leaves at least the hyphen outside the name.
    · rcases List.mem_map.1 hr with ⟨⟨stem, value⟩, hcut, rfl⟩
      have hcore := mem_hyphenCuts (List.mem_reverse.1 (List.mem_filter.1 hcut).1)
      simp only [String.toList_ofList, hcore, List.length_append, List.length_cons]
      omega
    · refine List.pairwise_map.2 (List.Pairwise.filter _ (List.pairwise_reverse.2 ?_))
      simp only [String.toList_ofList]
      exact pairwise_hyphenCuts core.toList

end

end Token

end UtilityCss
