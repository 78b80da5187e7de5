import UtilityCss.Ordered.Map

/-!
# Maps Whose Values All Have a Property

An invariant of a map's values, kept by every operation on maps.

Writing, overlaying and erasing only ever move values from their arguments into
the result, so a property of all values of the arguments is one of all values of
the result. This is stated once for any property, and the invariants of themes
and grammars are instances of it.

## Main definitions

* `SortedMap.All`: All values of the map have a property.

## Theorems

* `All.get?`: A value that is read has the property.
* `All.insert`, `All.extend`, `All.erase`: Operations keep the property.
* `All.ofList`: The map of a list has the property of the list's values.
-/

namespace UtilityCss

namespace SortedMap

variable {α : Type} {p : α → Prop} {m n : SortedMap α}

/-- All values of the map have a property. -/
def All (p : α → Prop) (m : SortedMap α) : Prop := ∀ e ∈ m.entries, p e.2

namespace All

theorem empty : All p SortedMap.empty := by
  intro e he
  exact absurd he List.not_mem_nil

/-- A value that is read has the property. -/
theorem get? (h : All p m) {key : String} {value : α} (hv : m.get? key = some value) :
    p value :=
  h _ (mem_of_find? hv)

theorem insert (h : All p m) {value : α} (hv : p value) (key : String) :
    All p (m.insert key value) := by
  intro e he
  rcases mem_insertEntry he with rfl | he
  · exact hv
  · exact h e he

theorem insertMany (h : All p m) {entries : List (String × α)}
    (hentries : ∀ e ∈ entries, p e.2) : All p (m.insertMany entries) := by
  -- The map is generalized, because each entry is written into another one.
  induction entries generalizing m with
  | nil => exact h
  | cons e entries ih =>
      rw [SortedMap.insertMany, List.foldl_cons]
      have hinsert : All p (m.insert e.1 e.2) := h.insert (hentries e List.mem_cons_self) e.1
      exact ih hinsert fun e' he' => hentries e' (List.mem_cons_of_mem _ he')

theorem extend (h : All p m) (hn : All p n) : All p (m.extend n) := h.insertMany hn

theorem ofList {entries : List (String × α)} (h : ∀ e ∈ entries, p e.2) :
    All p (SortedMap.ofList entries) :=
  empty.insertMany h

theorem erase (h : All p m) (key : String) : All p (m.erase key) := by
  intro e he
  exact h e (List.mem_filter.1 he).1

end All

end SortedMap

end UtilityCss
