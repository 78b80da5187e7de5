/-!
# Sorted Sets of Texts

Finite sets of texts, kept as a list in strictly ascending order.

Scanning finds the same token many times and in any order; what counts is
which tokens there are. The set is therefore built from a list by sorting and
dropping repetitions, and a union is the set of both lists. Strict order makes
the representation unique: two sets with the same members are equal
(`ext_mem`), so laws about scanning are plain equations.

## Main definitions

* `SortedSet`: Members in strictly ascending order.
* `SortedSet.ofList`: The set of a list's elements.
* `SortedSet.union`: The members of either set.

## Theorems

* `SortedSet.mem_ofList`: A set of a list has exactly its elements.
* `SortedSet.mem_union`: A union has exactly the members of both.
* `SortedSet.ext_mem`: A set is determined by its members.
* `SortedSet.union_comm`, `SortedSet.union_assoc`: Unions do not depend on the order.
-/

namespace UtilityCss

/-- A finite set of texts, as a list in strictly ascending order. -/
structure SortedSet where
  /-- The members, ascending. -/
  toList : List String
  /-- Members ascend strictly. -/
  sorted : toList.Pairwise fun a b => a < b

namespace SortedSet

theorem ext_toList {s t : SortedSet} (h : s.toList = t.toList) : s = t := by
  cases s
  cases t
  simp only at h
  subst h
  rfl

instance : DecidableEq SortedSet := fun s t =>
  if h : s.toList = t.toList then isTrue (ext_toList h)
  else isFalse fun heq => h (heq ▸ rfl)

/-- The set without members. -/
def empty : SortedSet := ⟨[], List.Pairwise.nil⟩

instance : EmptyCollection SortedSet := ⟨empty⟩

instance : Inhabited SortedSet := ⟨empty⟩

instance : Membership String SortedSet := ⟨fun s a => a ∈ s.toList⟩

instance (a : String) (s : SortedSet) : Decidable (a ∈ s) :=
  inferInstanceAs (Decidable (a ∈ s.toList))

/-- The number of members. -/
def size (s : SortedSet) : Nat := s.toList.length

/-- The set has no members. -/
def isEmpty (s : SortedSet) : Bool := s.toList.isEmpty

/-- Neighbours that are equal, reduced to one. -/
def squeeze : List String → List String
  | [] => []
  | [a] => [a]
  | a :: b :: rest => if a = b then squeeze (b :: rest) else a :: squeeze (b :: rest)

theorem mem_squeeze (x : String) (l : List String) : x ∈ squeeze l ↔ x ∈ l := by
  induction l using squeeze.induct with
  | case1 => rfl
  | case2 a => rfl
  | case3 a rest ih =>
    rw [squeeze, if_pos rfl, ih]
    simp only [List.mem_cons, or_self_left]
  | case4 a b rest hne ih =>
    rw [squeeze, if_neg hne, List.mem_cons, ih, List.mem_cons (a := x) (b := a)]

/-- Squeezing an ascending list makes it strictly ascending. -/
theorem pairwise_squeeze {l : List String} (h : l.Pairwise fun a b => a ≤ b) :
    (squeeze l).Pairwise fun a b => a < b := by
  induction l using squeeze.induct with
  | case1 => exact List.Pairwise.nil
  | case2 a => exact List.pairwise_singleton _ _
  | case3 a rest ih =>
    rw [squeeze, if_pos rfl]
    exact ih (List.pairwise_cons.1 h).2
  | case4 a b rest hne ih =>
    obtain ⟨hhead, htail⟩ := List.pairwise_cons.1 h
    rw [squeeze, if_neg hne]
    refine List.pairwise_cons.2 ⟨fun x hx => ?_, ih htail⟩
    have hab : a < b := Std.lt_of_le_of_ne (hhead b List.mem_cons_self) hne
    rcases List.mem_cons.1 ((mem_squeeze x _).1 hx) with rfl | hx
    · exact hab
    · exact Std.lt_of_lt_of_le hab ((List.pairwise_cons.1 htail).1 x hx)

/-- The order of texts as a truth value. -/
def isAtMost (a b : String) : Bool := decide (a ≤ b)

/-- The list in ascending order. -/
def ascending (l : List String) : List String := l.mergeSort isAtMost

theorem isAtMost_trans (a b c : String) (hab : isAtMost a b = true)
    (hbc : isAtMost b c = true) : isAtMost a c = true :=
  decide_eq_true (String.le_trans (of_decide_eq_true hab) (of_decide_eq_true hbc))

theorem isAtMost_total (a b : String) : (isAtMost a b || isAtMost b a) = true := by
  rcases String.le_total a b with h | h
  · simp only [isAtMost, h, decide_true, Bool.true_or]
  · simp only [isAtMost, h, decide_true, Bool.or_true]

/-- Sorting makes a list ascending. -/
theorem pairwise_ascending (l : List String) :
    (ascending l).Pairwise fun a b => a ≤ b :=
  (List.pairwise_mergeSort isAtMost_trans isAtMost_total l).imp
    fun hab => of_decide_eq_true hab

/-- The set of a list's elements. -/
def ofList (l : List String) : SortedSet :=
  ⟨squeeze (ascending l), pairwise_squeeze (pairwise_ascending l)⟩

/-- The members of either set. -/
def union (s t : SortedSet) : SortedSet :=
  ofList (s.toList ++ t.toList)

/-- The members that pass a test. -/
def filter (p : String → Bool) (s : SortedSet) : SortedSet :=
  ⟨s.toList.filter p, s.sorted.filter _⟩

/-- The set with one more member. -/
def insert (s : SortedSet) (a : String) : SortedSet :=
  ofList (a :: s.toList)

/-- The set without one member. -/
def erase (s : SortedSet) (a : String) : SortedSet :=
  s.filter fun b => b ≠ a

theorem mem_iff_mem_toList {a : String} {s : SortedSet} : a ∈ s ↔ a ∈ s.toList :=
  Iff.rfl

theorem toList_filter (p : String → Bool) (s : SortedSet) :
    (s.filter p).toList = s.toList.filter p := rfl

theorem mem_ofList (a : String) (l : List String) : a ∈ ofList l ↔ a ∈ l :=
  (mem_squeeze a _).trans List.mem_mergeSort

theorem mem_union (a : String) (s t : SortedSet) : a ∈ s.union t ↔ a ∈ s ∨ a ∈ t := by
  rw [union, mem_ofList, List.mem_append]
  rfl

theorem mem_filter (a : String) (p : String → Bool) (s : SortedSet) :
    a ∈ s.filter p ↔ a ∈ s ∧ p a = true :=
  List.mem_filter

theorem mem_insert (a b : String) (s : SortedSet) : a ∈ s.insert b ↔ a = b ∨ a ∈ s := by
  rw [insert, mem_ofList, List.mem_cons]
  rfl

theorem mem_erase (a b : String) (s : SortedSet) : a ∈ s.erase b ↔ a ∈ s ∧ a ≠ b := by
  rw [erase, mem_filter, decide_eq_true_eq]

theorem nodup_toList (s : SortedSet) : s.toList.Nodup := by
  refine List.Pairwise.imp ?_ s.sorted
  rintro a b hlt rfl
  exact String.lt_irrefl _ hlt

/-- A set is determined by its members. -/
theorem ext_mem {s t : SortedSet} (h : ∀ a, a ∈ s ↔ a ∈ t) : s = t := by
  have hperm := (List.perm_ext_iff_of_nodup s.nodup_toList t.nodup_toList).2 h
  -- Of two members only one can come first, so there is one order for all of them.
  refine ext_toList (hperm.eq_of_pairwise (fun a b _ _ hab hba => ?_) s.sorted t.sorted)
  exact absurd (String.lt_trans hab hba) (String.lt_irrefl _)

theorem union_comm (s t : SortedSet) : s.union t = t.union s := by
  refine ext_mem fun a => ?_
  rw [mem_union, mem_union, or_comm]

theorem union_assoc (s t u : SortedSet) : (s.union t).union u = s.union (t.union u) := by
  refine ext_mem fun a => ?_
  simp only [mem_union, or_assoc]

theorem empty_union (s : SortedSet) : empty.union s = s := by
  refine ext_mem fun a => ?_
  rw [mem_union, or_iff_right]
  exact List.not_mem_nil

end SortedSet

end UtilityCss
