/-!
# Maps Sorted by Key

Finite maps from texts, kept as a list of entries in ascending key order.

A theme, an axis and the tables of the grammar are all read in the order of
their keys and compared as wholes, so the order belongs to the type: the
field `sorted` says that keys ascend strictly. Strict order also means that no
key occurs twice, and that two maps with the same lookups are the same map
(`ext_get?`), which an arbitrary tree would not give.

Keys are compared by code point, which is the order of their UTF-8 bytes.

## Main definitions

* `SortedMap`: Entries in strictly ascending key order.
* `SortedMap.get?`: The value under a key.
* `SortedMap.insert`: The map with one entry written.
* `SortedMap.extend`: The map overlaid by another one.
* `SortedMap.ofList`: The map of a list of entries, later entries winning.

## Theorems

* `SortedMap.get?_insert`: A written key reads back, the others are untouched.
* `SortedMap.get?_erase`: An erased key is gone, the others are untouched.
* `SortedMap.get?_extend`: The overlay's entries win.
* `SortedMap.ext_get?`: A map is determined by its lookups.
-/

namespace UtilityCss

/-- A finite map from texts, as a list of entries in strictly ascending key
    order. -/
structure SortedMap (α : Type) where
  /-- The entries, in key order. -/
  entries : List (String × α)
  /-- Keys ascend strictly. -/
  sorted : entries.Pairwise fun a b => a.1 < b.1

namespace SortedMap

variable {α : Type}

theorem ext_entries {m n : SortedMap α} (h : m.entries = n.entries) : m = n := by
  cases m
  cases n
  simp only at h
  subst h
  rfl

instance [DecidableEq α] : DecidableEq (SortedMap α) := fun m n =>
  if h : m.entries = n.entries then isTrue (ext_entries h)
  else isFalse fun heq => h (heq ▸ rfl)

/-- The map without entries. -/
def empty : SortedMap α := ⟨[], List.Pairwise.nil⟩

instance : EmptyCollection (SortedMap α) := ⟨empty⟩

instance : Inhabited (SortedMap α) := ⟨empty⟩

/-- The value of the first entry under a key. -/
def find? (key : String) : List (String × α) → Option α
  | [] => none
  | (k, v) :: rest => if k = key then some v else find? key rest

/-- The value under a key. -/
def get? (m : SortedMap α) (key : String) : Option α :=
  find? key m.entries

/-- The key has a value. -/
def contains (m : SortedMap α) (key : String) : Bool :=
  (m.get? key).isSome

/-- The keys, ascending. -/
def keys (m : SortedMap α) : List String :=
  m.entries.map Prod.fst

/-- The number of entries. -/
def size (m : SortedMap α) : Nat :=
  m.entries.length

/-- The map has no entries. -/
def isEmpty (m : SortedMap α) : Bool :=
  m.entries.isEmpty

/-- One entry written into a list of entries, at its place in key order. -/
def insertEntry (key : String) (value : α) :
    List (String × α) → List (String × α)
  | [] => [(key, value)]
  | (k, v) :: rest =>
    if key < k then (key, value) :: (k, v) :: rest
    else if key = k then (key, value) :: rest
    else (k, v) :: insertEntry key value rest

/-- A key of the list after writing is the key written or an old one. -/
theorem mem_insertEntry {key : String} {value : α} {l : List (String × α)}
    {e : String × α} (h : e ∈ insertEntry key value l) :
    e = (key, value) ∨ e ∈ l := by
  induction l with
  | nil => exact Or.inl (List.mem_singleton.1 h)
  | cons a as ih =>
    rw [insertEntry] at h
    split at h
    · rcases List.mem_cons.1 h with h | h
      · exact Or.inl h
      · exact Or.inr h
    · split at h
      · rcases List.mem_cons.1 h with h | h
        · exact Or.inl h
        · exact Or.inr (List.mem_cons_of_mem _ h)
      · rcases List.mem_cons.1 h with h | h
        · exact Or.inr (h ▸ List.mem_cons_self)
        · rcases ih h with h | h
          · exact Or.inl h
          · exact Or.inr (List.mem_cons_of_mem _ h)

/-- Writing an entry keeps the keys strictly ascending. -/
theorem pairwise_insertEntry (key : String) (value : α) {l : List (String × α)}
    (h : l.Pairwise fun a b => a.1 < b.1) :
    (insertEntry key value l).Pairwise fun a b => a.1 < b.1 := by
  induction l with
  | nil => exact List.pairwise_singleton _ _
  | cons a as ih =>
    obtain ⟨hhead, htail⟩ := List.pairwise_cons.1 h
    rw [insertEntry]
    split
    · next hlt =>
      refine List.pairwise_cons.2 ⟨fun b hb => ?_, h⟩
      rcases List.mem_cons.1 hb with rfl | hb
      · exact hlt
      · exact String.lt_trans hlt (hhead b hb)
    · split
      · next hnlt heq =>
        exact List.pairwise_cons.2 ⟨fun b hb => heq ▸ hhead b hb, htail⟩
      · next hnlt hne =>
        refine List.pairwise_cons.2 ⟨fun b hb => ?_, ih htail⟩
        rcases mem_insertEntry hb with rfl | hb
        · exact Std.lt_of_le_of_ne (String.not_lt.1 hnlt) (Ne.symm hne)
        · exact hhead b hb

/-- The map with one entry written: a key that was there gets the new value. -/
def insert (m : SortedMap α) (key : String) (value : α) : SortedMap α :=
  ⟨insertEntry key value m.entries, pairwise_insertEntry key value m.sorted⟩

/-- The map without one key. -/
def erase (m : SortedMap α) (key : String) : SortedMap α :=
  ⟨m.entries.filter fun e => e.1 ≠ key, m.sorted.filter _⟩

/-- The map with a list of entries written in order. -/
def insertMany (m : SortedMap α) (entries : List (String × α)) : SortedMap α :=
  entries.foldl (fun m e => m.insert e.1 e.2) m

/-- The map overlaid by another one, whose entries win. -/
def extend (m n : SortedMap α) : SortedMap α :=
  m.insertMany n.entries

/-- The map of a list of entries, where later entries win. -/
def ofList (entries : List (String × α)) : SortedMap α :=
  empty.insertMany entries

/-- Every value changed, the keys kept. -/
def map {β : Type} (f : α → β) (m : SortedMap α) : SortedMap β :=
  ⟨m.entries.map fun e => (e.1, f e.2), List.pairwise_map.2 m.sorted⟩

theorem find?_insertEntry (key : String) (value : α) (l : List (String × α))
    (k : String) :
    find? k (insertEntry key value l) = if key = k then some value else find? k l := by
  induction l with
  | nil => rfl
  | cons a as ih =>
    rw [insertEntry]
    split
    · rfl
    · split
      · next heq =>
        subst heq
        rw [find?, find?]
        split
        · rfl
        · rfl
      · next hne =>
        rw [find?, find?, ih]
        by_cases hk : a.1 = k
        · rw [if_pos hk, if_pos hk, if_neg]
          intro hkey
          exact hne (hkey.trans hk.symm)
        · rw [if_neg hk, if_neg hk]

/-- A written key reads back, the others are untouched. -/
theorem get?_insert (m : SortedMap α) (key : String) (value : α) (k : String) :
    (m.insert key value).get? k = if key = k then some value else m.get? k :=
  find?_insertEntry key value m.entries k

/-- An erased key is gone, the others are untouched. -/
theorem get?_erase (m : SortedMap α) (key k : String) :
    (m.erase key).get? k = if key = k then none else m.get? k := by
  show find? k (m.entries.filter _) = if key = k then none else find? k m.entries
  induction m.entries with
  | nil => simp only [List.filter_nil, find?, ite_self]
  | cons a as ih =>
    rw [List.filter_cons]
    by_cases ha : a.1 = key
    · simp only [ha, ne_eq, not_true_eq_false, decide_false, Bool.false_eq_true,
        if_false, find?]
      rw [ih]
      split <;> rfl
    · simp only [ha, ne_eq, not_false_eq_true, decide_true, if_true, find?]
      rw [ih]
      by_cases hk : a.1 = k
      · rw [if_pos hk, if_pos hk, if_neg]
        intro hkey
        exact ha (hk.trans hkey.symm)
      · rw [if_neg hk, if_neg hk]

theorem find?_eq_none {key : String} {l : List (String × α)}
    (h : ∀ e ∈ l, e.1 ≠ key) : find? key l = none := by
  induction l with
  | nil => rfl
  | cons a as ih =>
    rw [find?, if_neg (h a List.mem_cons_self)]
    exact ih fun e he => h e (List.mem_cons_of_mem _ he)

theorem mem_of_find? {key : String} {value : α} {l : List (String × α)}
    (h : find? key l = some value) : (key, value) ∈ l := by
  induction l with
  | nil => simp only [find?, reduceCtorEq] at h
  | cons a as ih =>
    rw [find?] at h
    split at h
    · next hk =>
      simp only [Option.some.injEq] at h
      rw [← hk, ← h]
      exact List.mem_cons_self
    · exact List.mem_cons_of_mem _ (ih h)

/-- Where keys ascend strictly, every entry is the one read under its key. -/
theorem find?_of_mem {key : String} {value : α} {l : List (String × α)}
    (hl : l.Pairwise fun a b => a.1 < b.1) (h : (key, value) ∈ l) :
    find? key l = some value := by
  induction l with
  | nil => exact absurd h List.not_mem_nil
  | cons a as ih =>
    obtain ⟨hhead, htail⟩ := List.pairwise_cons.1 hl
    rw [find?]
    rcases List.mem_cons.1 h with h | h
    · rw [← h, if_pos rfl]
    · rw [if_neg, ih htail h]
      intro heq
      exact String.lt_irrefl _ (heq ▸ hhead _ h)

/-- The entries of a map are the pairs that its lookups give. -/
theorem mem_entries_iff (m : SortedMap α) (key : String) (value : α) :
    (key, value) ∈ m.entries ↔ m.get? key = some value :=
  ⟨find?_of_mem m.sorted, mem_of_find?⟩

theorem find?_append (k : String) (xs ys : List (String × α)) :
    find? k (xs ++ ys) = (find? k xs).or (find? k ys) := by
  induction xs with
  | nil => rfl
  | cons x xs ih =>
    rw [List.cons_append, find?, find?]
    split
    · rfl
    · exact ih

/-- Writing entries in order: the last one under a key is the one read. -/
theorem get?_insertMany (m : SortedMap α) (l : List (String × α)) (k : String) :
    (m.insertMany l).get? k = (find? k l.reverse).or (m.get? k) := by
  induction l generalizing m with
  | nil => rfl
  | cons a as ih =>
    rw [insertMany, List.foldl_cons, ← insertMany, ih, List.reverse_cons, find?_append,
      get?_insert, find?, find?]
    cases find? k as.reverse with
    | some v => rfl
    | none => split <;> rfl

theorem find?_ne_none_of_mem {k : String} {v : α} {l : List (String × α)} (h : (k, v) ∈ l) :
    find? k l ≠ none := by
  induction l with
  | nil => exact absurd h List.not_mem_nil
  | cons a as ih =>
    rw [find?]
    split
    · exact Option.some_ne_none _
    · next hne =>
      rcases List.mem_cons.1 h with heq | h
      · exact absurd (heq ▸ rfl) hne
      · exact ih h

/-- In a list with strictly ascending keys the last entry of a key is the
    first one. -/
theorem find?_reverse {l : List (String × α)}
    (h : l.Pairwise fun a b => a.1 < b.1) (k : String) :
    find? k l.reverse = find? k l := by
  rcases hf : find? k l with _ | v
  · refine find?_eq_none fun e he hk => ?_
    have hmem := List.mem_reverse.1 he
    have he' : (k, e.2) ∈ l := hk ▸ hmem
    rw [find?_of_mem h he'] at hf
    exact absurd hf (by simp only [reduceCtorEq, not_false_eq_true])
  · rcases hr : find? k l.reverse with _ | w
    · exact absurd hr (find?_ne_none_of_mem (List.mem_reverse.2 (mem_of_find? hf)))
    · have hw := find?_of_mem h (List.mem_reverse.1 (mem_of_find? hr))
      rw [← hw, hf]

/-- The overlay's entries win. -/
theorem get?_extend (m n : SortedMap α) (k : String) :
    (m.extend n).get? k = (n.get? k).or (m.get? k) := by
  rw [extend, get?_insertMany, find?_reverse n.sorted]
  rfl

theorem nodup_entries (m : SortedMap α) : m.entries.Nodup := by
  refine List.Pairwise.imp ?_ m.sorted
  rintro a b hlt rfl
  exact String.lt_irrefl _ hlt

/-- A map is determined by its lookups. -/
theorem ext_get? {m n : SortedMap α} (h : ∀ k, m.get? k = n.get? k) : m = n := by
  have hmem : ∀ e, e ∈ m.entries ↔ e ∈ n.entries := by
    rintro ⟨k, v⟩
    rw [mem_entries_iff, mem_entries_iff, h]
  have hperm := (List.perm_ext_iff_of_nodup m.nodup_entries n.nodup_entries).2 hmem
  -- Of two entries only one can come first, so there is one order for all of them.
  refine ext_entries (hperm.eq_of_pairwise (fun a b _ _ hab hba => ?_) m.sorted n.sorted)
  exact absurd (String.lt_trans hab hba) (String.lt_irrefl _)

end SortedMap

end UtilityCss
