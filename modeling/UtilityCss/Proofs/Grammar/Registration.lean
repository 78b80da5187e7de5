import UtilityCss.Grammar.Default

/-!
# Registration

The grammars that a build can have, and what holds in all of them.

A build starts from the default grammar under some dark mode, and plugins change
it by registering utilities and static rules one after the other. `Reachable`
collects the grammars that arise in this way. A fact about all of them is proved
once for the start and once for a single registration.

The fact needed first is about ranks. A name gets the next free rank when it is
registered for the first time, and the default utilities have taken the low
ranks by then. So every static rule that a plugin registers has a rank above all
of the default utilities, also when it is put into the base layer, where the
resets stand with ranks from zero.

## Main definitions

* `Registration`: A utility or a static rule to register.
* `Grammar.enter`: A grammar with a registration made.
* `Grammar.Reachable`: The grammars that registrations lead to.
* `Grammar.RanksFrom`: Registered static rules have ranks from some number on.

## Theorems

* `utilities_place`, `statics_register`, `statics_registerStatic`: The tables after a
  registration.
* `ranksFrom_enter`: A registration takes no rank below the next free one.
* `ranksFrom_of_reachable`: In reachable grammars low ranks are taken.
* `staticRule?_rank`: Where a static rule of a reachable grammar can stand.
-/

namespace UtilityCss

/-- Something to register in a grammar. -/
inductive Registration where
  /-- A utility. -/
  | utility (u : Utility)
  /-- A static rule. -/
  | static (r : StaticRule)
deriving Inhabited

namespace Grammar

/-- The grammar with a registration made. -/
def enter (g : Grammar) : Registration → Grammar
  | .utility u => g.register u
  | .static r => g.registerStatic r

/-- The grammars that registrations lead to from the default one. -/
inductive Reachable : Grammar → Prop where
  /-- The default grammar under a dark mode. -/
  | initial (mode : DarkMode) : Reachable (Grammar.default.withDarkMode mode)
  /-- One registration more. -/
  | enter {g : Grammar} (entry : Registration) (h : Reachable g) : Reachable (g.enter entry)

/-- The next rank and the ranks of registered static rules start at some
    number. -/
structure RanksFrom (n : Nat) (g : Grammar) : Prop where
  next : n ≤ g.nextRank
  statics : ∀ name found, g.statics.get? name = some found → n ≤ found.rank

theorem nextRank_le_nextRankAfter {α : Type} (g : Grammar) (shadowed : Option (Ranked α)) :
    g.nextRank ≤ g.nextRankAfter shadowed := by
  cases shadowed with
  | none => exact Nat.le_succ _
  | some old => exact Nat.le_refl _

/-! ### The tables after a registration -/

section Tables

variable (g : Grammar)

theorem utilities_place (u : Utility) (stem : String) :
    (g.place u).utilities.get? stem
      = if u.stem = stem then some ⟨g.rankFor (g.utilities.get? u.stem), u⟩
        else g.utilities.get? stem :=
  SortedMap.get?_insert _ _ _ _

-- Registering a utility only takes a static rule out.
theorem statics_register (u : Utility) (name : String) :
    (g.register u).statics.get? name = if u.stem = name then none else g.statics.get? name :=
  SortedMap.get?_erase _ _ _

theorem statics_registerStatic (r : StaticRule) (name : String) :
    (g.registerStatic r).statics.get? name
      = if r.name = name then some ⟨g.rankFor (g.statics.get? r.name), r⟩
        else g.statics.get? name :=
  SortedMap.get?_insert _ _ _ _

end Tables

/-! ### Ranks of static rules -/

theorem ranksFrom_register {n : Nat} {g : Grammar} (h : RanksFrom n g) (u : Utility) :
    RanksFrom n (g.register u) where
  next := Nat.le_trans h.next (nextRank_le_nextRankAfter _ _)
  statics := by
    intro name found hfound
    rw [statics_register] at hfound
    split at hfound
    · simp only [reduceCtorEq] at hfound
    · exact h.statics name found hfound

theorem ranksFrom_registerStatic {n : Nat} {g : Grammar} (h : RanksFrom n g) (r : StaticRule) :
    RanksFrom n (g.registerStatic r) where
  next := Nat.le_trans h.next (nextRank_le_nextRankAfter _ _)
  statics := by
    intro name found hfound
    rw [statics_registerStatic] at hfound
    split at hfound
    · -- The rule itself: its rank is the one it shadows or the next one.
      rw [← Option.some.inj hfound]
      cases hold : g.statics.get? r.name with
      | none => exact h.next
      | some old => exact h.statics r.name old hold
    · exact h.statics name found hfound

theorem ranksFrom_enter {n : Nat} {g : Grammar} (h : RanksFrom n g) (entry : Registration) :
    RanksFrom n (g.enter entry) := by
  cases entry with
  | utility u => exact ranksFrom_register h u
  | static r => exact ranksFrom_registerStatic h r

/-- The number of ranks that are taken before the first registration: one for
    each default utility, and zero, which all default static rules share. -/
def reservedRanks : Nat := DefaultGrammar.utilities.length + 1

theorem nextRank_default : Grammar.default.nextRank = reservedRanks := by decide +kernel

theorem statics_foldl_place (us : List Utility) (g : Grammar) :
    (us.foldl place g).statics = g.statics := by
  induction us generalizing g with
  | nil => rfl
  | cons u us ih => exact ih (g.place u)

theorem statics_default : Grammar.default.statics = SortedMap.empty := by
  unfold Grammar.default
  rw [statics_foldl_place]
  rfl

theorem ranksFrom_default : RanksFrom reservedRanks Grammar.default where
  next := Nat.le_of_eq nextRank_default.symm
  statics := by
    intro name found hfound
    rw [statics_default] at hfound
    simp only [SortedMap.get?, SortedMap.empty, SortedMap.find?, reduceCtorEq] at hfound

theorem ranksFrom_withDarkMode {n : Nat} {g : Grammar} (h : RanksFrom n g) (mode : DarkMode) :
    RanksFrom n (g.withDarkMode mode) :=
  ⟨h.next, h.statics⟩

/-- In reachable grammars the ranks of the default grammar are taken. -/
theorem ranksFrom_of_reachable {g : Grammar} (h : Reachable g) : RanksFrom reservedRanks g := by
  induction h with
  | initial mode => exact ranksFrom_withDarkMode ranksFrom_default mode
  | enter entry _ ih => exact ranksFrom_enter ih entry

/-- A static rule of a reachable grammar stands in the layer of utilities or
    behind the ranks of the default grammar. -/
theorem staticRule?_rank {g : Grammar} (h : Reachable g) {name : String}
    {found : Ranked StaticRule} (hf : g.staticRule? name = some found) :
    found.item.layer = .utilities ∨ reservedRanks ≤ found.rank := by
  unfold staticRule? at hf
  split at hf
  · next registered hreg =>
      rw [← Option.some.inj hf]
      exact Or.inr ((ranksFrom_of_reachable h).statics name registered hreg)
  · split at hf
    · simp only [reduceCtorEq] at hf
    · -- A static rule of the default grammar stands in the layer of utilities.
      rcases Option.map_eq_some_iff.1 hf with ⟨declarations, -, rfl⟩
      exact Or.inl rfl

end Grammar

end UtilityCss
