import UtilityCss.Proofs.Grammar.Registration

/-!
# What a Grammar Remembers

What a grammar answers, said by the registrations that led to it.

A grammar keeps three tables and a counter, and every registration touches several
of them. What it answers afterwards can be said without them. A utility is the one
registered last for its stem. A static rule is the one registered last for its
name, unless a utility was registered for the name after it; then nothing is found.
Names that no registration mentions are answered as at the start.

The place in the cascade is decided by the first registration and not by the last.
A name gets the next rank when it is new, and what shadows it takes its rank over.
So ranks are never shared and never move. They can be compared once, and a later
registration leaves the outcome alone as long as both entries are there. A static
rule that a utility hides is not there any more: when it comes back, it is new.

The layer of a static rule is another matter. It is that of the rule registered last,
and layers come before ranks in the cascade. So the order of two entries in the cascade
stays only as long as neither is registered again for another layer.

One registration writes one entry and may remove another. `Writes` says this of the
utilities that the default grammar starts with as well, so the invariant is proved
for one step and holds from the empty grammar on.

## Main definitions

* `Registration.name`: The name that a registration mentions.
* `Grammar.Entry`, `Grammar.rankOf?`: The entries of the two tables with their ranks.
* `Grammar.Writes`: One entry is written, and the counter goes on if it is new.
* `Grammar.IsRanked`: Ranks are positive, not shared and below the next one.
* `Grammar.Precedes`, `Grammar.Stays`: The order of entries, and entries that are never
  removed.
* `Grammar.layer?`, `Grammar.ComesBefore`, `Grammar.LeavesLayer`: The layers of entries, their
  order in the cascade, and registrations that leave a layer alone.
* `Grammar.Remembers`: The answers of a grammar after a list of registrations.

## Theorems

* `writes_enter`: What a registration does to the ranks.
* `isRanked_of_writes`: Writing an entry keeps ranks apart.
* `utility?_enterAll`, `staticRule?_enterAll`: Other names are left alone.
* `rankOf?_enterAll`: An entry that is never removed keeps its rank.
* `layer?_enterAll`: It keeps its layer if no registration for its name has another one.
* `remembers_enterAll`: What is remembered of any list of registrations.
-/

namespace UtilityCss

/-- The name that a registration mentions. -/
def Registration.name : Registration → String
  | .utility u => u.stem
  | .static r => r.name

namespace Grammar

/-- Something that has a rank of its own. -/
inductive Entry where
  /-- The utility of a stem. -/
  | utility (stem : String)
  /-- The registered static rule of a name. -/
  | static (name : String)
deriving DecidableEq

/-- The entry that a registration writes. -/
def entryOf : Registration → Entry
  | .utility u => .utility u.stem
  | .static r => .static r.name

/-- The rank of an entry, if the entry is there. -/
def rankOf? (g : Grammar) : Entry → Option Nat
  | .utility stem => (g.utilities.get? stem).map Ranked.rank
  | .static name => (g.statics.get? name).map Ranked.rank

/-- The grammar with registrations made in order. -/
def enterAll (g : Grammar) (entries : List Registration) : Grammar := entries.foldl enter g

/-- An entry is written: it keeps its rank or gets the next one, and no other entry
    gets a rank that it did not have. -/
structure Writes (e : Entry) (g g' : Grammar) : Prop where
  written : g'.rankOf? e = some ((g.rankOf? e).getD g.nextRank)
  others : ∀ e', e' ≠ e → g'.rankOf? e' = g.rankOf? e' ∨ g'.rankOf? e' = none
  next : g'.nextRank = if (g.rankOf? e).isSome then g.nextRank else g.nextRank + 1

/-- Ranks are positive, below the next one, and not shared. -/
structure IsRanked (g : Grammar) : Prop where
  positive : 1 ≤ g.nextRank
  bounds : ∀ e rank, g.rankOf? e = some rank → 1 ≤ rank ∧ rank < g.nextRank
  apart : ∀ e e' rank, g.rankOf? e = some rank → g.rankOf? e' = some rank → e = e'

/-- Both entries are there, and the first one has the lower rank. -/
def Precedes (g : Grammar) (e e' : Entry) : Prop :=
  ∃ rank rank', g.rankOf? e = some rank ∧ g.rankOf? e' = some rank' ∧ rank < rank'

/-- An entry is there, before the registrations and after each of them. -/
def Stays (g : Grammar) (entries : List Registration) (e : Entry) : Prop :=
  ∀ made, made <+: entries → ((g.enterAll made).rankOf? e).isSome = true

/-- The layer of an entry, if the entry is there. -/
def layer? (g : Grammar) : Entry → Option Layer
  | .utility stem => (g.utilities.get? stem).map fun _ => .utilities
  | .static name => (g.statics.get? name).map fun found => found.item.layer

/-- Both entries are there, and the first one comes first in the cascade: it is in an earlier
    layer, or in the same layer and has the lower rank. -/
def ComesBefore (g : Grammar) (e e' : Entry) : Prop :=
  ∃ layer layer' rank rank', g.layer? e = some layer ∧ g.layer? e' = some layer' ∧
    g.rankOf? e = some rank ∧ g.rankOf? e' = some rank' ∧
    (layer.position < layer'.position ∨ layer = layer' ∧ rank < rank')

/-- No registration puts an entry into another layer. -/
def LeavesLayer (g : Grammar) (entries : List Registration) (e : Entry) : Prop :=
  ∀ r, .static r ∈ entries → e = .static r.name → g.layer? e = some r.layer

/-- What a grammar answers after registrations, and where its entries stand. -/
structure Remembers (g : Grammar) (entries : List Registration) : Prop where
  /-- A utility is the one registered last for its stem. -/
  utility : ∀ before u later, entries = before ++ .utility u :: later →
    (∀ v, .utility v ∈ later → v.stem ≠ u.stem) →
    ((g.enterAll entries).utility? u.stem).map Ranked.item = some u
  /-- A stem that nothing was registered for is answered as at the start. -/
  utilityElse : ∀ stem, (∀ u, .utility u ∈ entries → u.stem ≠ stem) →
    (g.enterAll entries).utility? stem = g.utility? stem
  /-- A utility of a new stem gets the next rank and has it from then on. -/
  firstRank : ∀ before u later, entries = before ++ .utility u :: later →
    (g.enterAll before).utility? u.stem = none →
    ((g.enterAll entries).utility? u.stem).map Ranked.rank = some (g.enterAll before).nextRank
  /-- A stem that has a rank keeps it. -/
  keptRank : ∀ before later, entries = before ++ later → ∀ stem old,
    (g.enterAll before).utility? stem = some old →
    ((g.enterAll entries).utility? stem).map Ranked.rank = some old.rank
  /-- A static rule is the one registered last if nothing was registered for the name
      after it. -/
  static : ∀ before r later, entries = before ++ .static r :: later →
    (∀ entry ∈ later, entry.name ≠ r.name) →
    ((g.enterAll entries).staticRule? r.name).map Ranked.item = some r
  /-- There is no static rule if a utility was registered last for the name. -/
  hidden : ∀ before u later, entries = before ++ .utility u :: later →
    (∀ entry ∈ later, entry.name ≠ u.stem) → (g.enterAll entries).staticRule? u.stem = none
  /-- A name that nothing was registered for has its default static rule, of rank 0. -/
  staticElse : ∀ name, (∀ entry ∈ entries, entry.name ≠ name) →
    (g.enterAll entries).staticRule? name
      = (Grammar.default.base.get? name).map fun declarations =>
          ⟨0, name, declarations, .utilities⟩
  /-- Ranks are positive, below the next one, and not shared. -/
  ranked : IsRanked (g.enterAll entries)
  /-- Each registration takes one rank at most. -/
  counter : (g.enterAll entries).nextRank ≤ reservedRanks + entries.length
  /-- The order of the ranks of two entries that are there throughout never changes. -/
  order : ∀ before later, entries = before ++ later → ∀ e e',
    Stays (g.enterAll before) later e → Stays (g.enterAll before) later e' →
    (Precedes (g.enterAll entries) e e' ↔ Precedes (g.enterAll before) e e')
  /-- Their order in the cascade does not change unless one of them is put into another
      layer. -/
  cascade : ∀ before later, entries = before ++ later → ∀ e e',
    Stays (g.enterAll before) later e → Stays (g.enterAll before) later e' →
    LeavesLayer (g.enterAll before) later e → LeavesLayer (g.enterAll before) later e' →
    (ComesBefore (g.enterAll entries) e e' ↔ ComesBefore (g.enterAll before) e e')

/-! ### One registration -/

section Step

variable (g : Grammar)

theorem rankFor_eq {α : Type} (shadowed : Option (Ranked α)) :
    g.rankFor shadowed = (shadowed.map Ranked.rank).getD g.nextRank := by
  cases shadowed <;> rfl

theorem nextRankAfter_eq {α : Type} (shadowed : Option (Ranked α)) :
    g.nextRankAfter shadowed
      = if (shadowed.map Ranked.rank).isSome then g.nextRank else g.nextRank + 1 := by
  cases shadowed <;> rfl

theorem utility?_register (u : Utility) (stem : String) :
    (g.register u).utility? stem
      = if u.stem = stem then some ⟨g.rankFor (g.utility? u.stem), u⟩ else g.utility? stem :=
  SortedMap.get?_insert _ _ _ _

theorem staticRule?_register (u : Utility) (name : String) :
    (g.register u).staticRule? name = if u.stem = name then none else g.staticRule? name := by
  have hmem : name ∈ (g.register u).masked ↔ name = u.stem ∨ name ∈ g.masked :=
    SortedSet.mem_insert name u.stem g.masked
  unfold staticRule?
  rw [statics_register]
  by_cases hname : u.stem = name
  · rw [if_pos hname, if_pos hname]
    exact if_pos (hmem.2 (Or.inl hname.symm))
  · rw [if_neg hname, if_neg hname]
    simp only [hmem, Ne.symm hname, false_or]
    rfl

theorem staticRule?_registerStatic (r : StaticRule) (name : String) :
    (g.registerStatic r).staticRule? name
      = if r.name = name then some ⟨g.rankFor (g.statics.get? r.name), r⟩
        else g.staticRule? name := by
  have hmem : name ∈ (g.registerStatic r).masked ↔ name ∈ g.masked ∧ name ≠ r.name :=
    SortedSet.mem_erase name r.name g.masked
  unfold staticRule?
  rw [statics_registerStatic]
  by_cases hname : r.name = name
  · rw [if_pos hname, if_pos hname]
  · rw [if_neg hname, if_neg hname]
    simp only [hmem, ne_eq, Ne.symm hname, not_false_eq_true, and_true]
    rfl

theorem writes_place (u : Utility) : Writes (.utility u.stem) g (g.place u) where
  written := by
    rw [rankOf?, utilities_place, if_pos rfl, Option.map_some, rankFor_eq]
    rfl
  others := by
    intro e he
    cases e with
    | utility stem =>
        have hstem : u.stem ≠ stem := fun heq => he (by rw [heq])
        rw [rankOf?, utilities_place, if_neg hstem]
        exact Or.inl rfl
    | static name => exact Or.inl rfl
  next := nextRankAfter_eq g _

-- Hiding a static rule takes its rank away and touches no other.
theorem writes_register (u : Utility) : Writes (.utility u.stem) g (g.register u) where
  written := (writes_place { g with
    statics := g.statics.erase u.stem, masked := g.masked.insert u.stem } u).written
  others := by
    intro e he
    cases e with
    | utility stem => exact (writes_place g u).others (.utility stem) he
    | static name =>
        rw [rankOf?, statics_register]
        split
        · exact Or.inr rfl
        · exact Or.inl rfl
  next := nextRankAfter_eq g _

theorem writes_registerStatic (r : StaticRule) :
    Writes (.static r.name) g (g.registerStatic r) where
  written := by
    rw [rankOf?, statics_registerStatic, if_pos rfl, Option.map_some, rankFor_eq]
    rfl
  others := by
    intro e he
    cases e with
    | utility stem => exact Or.inl rfl
    | static name =>
        have hname : r.name ≠ name := fun heq => he (by rw [heq])
        rw [rankOf?, statics_registerStatic, if_neg hname]
        exact Or.inl rfl
  next := nextRankAfter_eq g _

/-- A registration leaves the layer of an entry alone, unless it takes the entry away or is for
    its name. -/
theorem layer?_enter {entry : Registration} {e : Entry} (hbefore : (g.rankOf? e).isSome = true)
    (hafter : ((g.enter entry).rankOf? e).isSome = true) (h : LeavesLayer g [entry] e) :
    (g.enter entry).layer? e = g.layer? e := by
  cases entry with
  | utility u =>
      cases e with
      | utility stem =>
          -- All utilities are in one layer, so it is enough that there is one.
          rw [rankOf?, Option.isSome_map] at hbefore hafter
          rcases Option.isSome_iff_exists.1 hbefore with ⟨old, hold⟩
          rcases Option.isSome_iff_exists.1 hafter with ⟨found, hfound⟩
          rw [layer?, layer?, hold, hfound]
          rfl
      | static name =>
          have hstatics := statics_register g u name
          split at hstatics
          · rw [rankOf?, enter, hstatics] at hafter
            exact absurd hafter Bool.false_ne_true
          · rw [layer?, layer?, enter, hstatics]
  | static r =>
      cases e with
      | utility stem => rfl
      | static name =>
          have hstatics := statics_registerStatic g r name
          split at hstatics
          · next hname =>
              rw [h r List.mem_cons_self (by rw [hname]), layer?, enter, hstatics]
              rfl
          · rw [layer?, layer?, enter, hstatics]

/-- A registration writes its entry. -/
theorem writes_enter (entry : Registration) : Writes (entryOf entry) g (g.enter entry) := by
  cases entry with
  | utility u => exact writes_register g u
  | static r => exact writes_registerStatic g r

end Step

section Writes

variable {e : Entry} {g g' : Grammar} (h : Writes e g g')
include h

theorem nextRank_le_of_writes : g.nextRank ≤ g'.nextRank ∧ g'.nextRank ≤ g.nextRank + 1 := by
  rw [h.next]
  split
  · exact ⟨Nat.le_refl _, Nat.le_succ _⟩
  · exact ⟨Nat.le_succ _, Nat.le_refl _⟩

-- An entry that is there before and after has the same rank.
theorem rankOf?_of_writes {e' : Entry} {rank : Nat} (hbefore : g.rankOf? e' = some rank) :
    g'.rankOf? e' = some rank ∨ g'.rankOf? e' = none := by
  by_cases he : e' = e
  · rw [he] at hbefore ⊢
    rw [h.written, hbefore]
    exact Or.inl rfl
  · rw [← hbefore]
    exact h.others e' he

-- A rank that is found after a step was there before, or it is the next one and the
-- entry is the new one.
theorem rankOf?_eq_some_of_writes {e' : Entry} {rank : Nat} (hafter : g'.rankOf? e' = some rank) :
    g.rankOf? e' = some rank ∨
      e' = e ∧ rank = g.nextRank ∧ g'.nextRank = g.nextRank + 1 := by
  by_cases he : e' = e
  · subst he
    rw [h.written] at hafter
    have hnext := h.next
    cases hbefore : g.rankOf? e' with
    | some old =>
        rw [hbefore] at hafter
        exact Or.inl hafter
    | none =>
        rw [hbefore] at hafter hnext
        exact Or.inr ⟨rfl, (Option.some.inj hafter).symm, hnext⟩
  · rcases h.others e' he with heq | hnone
    · rw [← heq]
      exact Or.inl hafter
    · rw [hnone] at hafter
      simp only [reduceCtorEq] at hafter

/-- Writing an entry keeps ranks apart. -/
theorem isRanked_of_writes (hg : IsRanked g) : IsRanked g' where
  positive := Nat.le_trans hg.positive (nextRank_le_of_writes h).1
  bounds := by
    intro e' rank hrank
    have hle := (nextRank_le_of_writes h).1
    have hpositive := hg.positive
    rcases rankOf?_eq_some_of_writes h hrank with hold | ⟨-, hnew, hnext⟩
    · have hbounds := hg.bounds e' rank hold
      omega
    · omega
  apart := by
    intro e₁ e₂ rank h₁ h₂
    -- Each of the two had its rank before or is the new one.
    rcases rankOf?_eq_some_of_writes h h₁ with hold₁ | ⟨heq₁, hnew₁, -⟩
    · rcases rankOf?_eq_some_of_writes h h₂ with hold₂ | ⟨-, hnew₂, -⟩
      · exact hg.apart e₁ e₂ rank hold₁ hold₂
      · -- No old entry has the next rank.
        have hbounds := hg.bounds e₁ rank hold₁
        omega
    · rcases rankOf?_eq_some_of_writes h h₂ with hold₂ | ⟨heq₂, -, -⟩
      · have hbounds := hg.bounds e₂ rank hold₂
        omega
      · rw [heq₁, heq₂]

end Writes

/-! ### The default grammar -/

theorem isRanked_ofBase (base : SortedMap (List Declaration)) : IsRanked (ofBase base) where
  positive := Nat.le_refl 1
  bounds := by
    intro e rank hrank
    cases e <;> simp only [rankOf?, ofBase, SortedMap.get?, SortedMap.empty, SortedMap.find?,
      Option.map_none, reduceCtorEq] at hrank
  apart := by
    intro e e' rank hrank
    cases e <;> simp only [rankOf?, ofBase, SortedMap.get?, SortedMap.empty, SortedMap.find?,
      Option.map_none, reduceCtorEq] at hrank

theorem isRanked_foldl_place {g : Grammar} (h : IsRanked g) (us : List Utility) :
    IsRanked (us.foldl place g) := by
  induction us generalizing g with
  | nil => exact h
  | cons u us ih => exact ih (isRanked_of_writes (writes_place g u) h)

theorem isRanked_default : IsRanked Grammar.default :=
  isRanked_foldl_place (isRanked_ofBase _) _

theorem isRanked_withDarkMode {g : Grammar} (h : IsRanked g) (mode : DarkMode) :
    IsRanked (g.withDarkMode mode) where
  positive := h.positive
  bounds e rank hrank := h.bounds e rank (by cases e <;> exact hrank)
  apart e e' rank hrank hrank' :=
    h.apart e e' rank (by cases e <;> exact hrank) (by cases e' <;> exact hrank')

theorem masked_foldl_place (us : List Utility) (g : Grammar) :
    (us.foldl place g).masked = g.masked := by
  induction us generalizing g with
  | nil => rfl
  | cons u us ih => exact ih (g.place u)

theorem masked_default : Grammar.default.masked = SortedSet.empty := by
  unfold Grammar.default
  rw [masked_foldl_place]
  rfl

-- Where nothing is registered or hidden, the static rules are those to start with.
theorem staticRule?_of_empty {g : Grammar} (hstatics : g.statics = SortedMap.empty)
    (hmasked : g.masked = SortedSet.empty) (mode : DarkMode) (name : String) :
    (g.withDarkMode mode).staticRule? name
      = (g.base.get? name).map fun declarations => ⟨0, name, declarations, .utilities⟩ := by
  have hget : (g.withDarkMode mode).statics.get? name = none := by
    change g.statics.get? name = none
    rw [hstatics]
    rfl
  have hmem : name ∉ (g.withDarkMode mode).masked := by
    change name ∉ g.masked
    rw [hmasked]
    exact List.not_mem_nil
  unfold staticRule?
  rw [hget]
  exact if_neg hmem

/-! ### Registrations in order -/

section Run

variable {g : Grammar} {entries : List Registration}

theorem enterAll_append (g : Grammar) (before later : List Registration) :
    g.enterAll (before ++ later) = (g.enterAll before).enterAll later :=
  List.foldl_append

theorem enterAll_cons (g : Grammar) (entry : Registration) (entries : List Registration) :
    g.enterAll (entry :: entries) = (g.enter entry).enterAll entries := rfl

theorem utility?_enterAll {stem : String} (h : ∀ u, .utility u ∈ entries → u.stem ≠ stem) :
    (g.enterAll entries).utility? stem = g.utility? stem := by
  induction entries generalizing g with
  | nil => rfl
  | cons entry entries ih =>
      rw [enterAll_cons, ih fun u hu => h u (List.mem_cons_of_mem _ hu)]
      cases entry with
      | utility u => exact (utility?_register g u stem).trans (if_neg (h u List.mem_cons_self))
      | static r => rfl

theorem staticRule?_enterAll {name : String} (h : ∀ entry ∈ entries, entry.name ≠ name) :
    (g.enterAll entries).staticRule? name = g.staticRule? name := by
  induction entries generalizing g with
  | nil => rfl
  | cons entry entries ih =>
      have hname := h entry List.mem_cons_self
      rw [enterAll_cons, ih fun x hx => h x (List.mem_cons_of_mem _ hx)]
      cases entry with
      | utility u => exact (staticRule?_register g u name).trans (if_neg hname)
      | static r => exact (staticRule?_registerStatic g r name).trans (if_neg hname)

-- A utility is never removed, so its rank stays without a condition.
theorem utility?_enterAll_rank (entries : List Registration) {stem : String}
    {old : Ranked Utility} (h : g.utility? stem = some old) :
    ((g.enterAll entries).utility? stem).map Ranked.rank = some old.rank := by
  induction entries generalizing g old with
  | nil => exact congrArg (Option.map Ranked.rank) h
  | cons entry entries ih =>
      rw [enterAll_cons]
      cases entry with
      | utility u =>
          have hstep := utility?_register g u stem
          split at hstep
          · next hstem =>
              -- What shadows the utility takes its rank over.
              rw [hstem, h] at hstep
              have hshadows : (g.enter (.utility u)).utility? stem = some ⟨old.rank, u⟩ := hstep
              have hlater := ih hshadows
              exact hlater
          · rw [h] at hstep
            exact ih hstep
      | static r => exact ih h

theorem rankOf?_enterAll {e : Entry} (h : Stays g entries e) :
    (g.enterAll entries).rankOf? e = g.rankOf? e := by
  induction entries generalizing g with
  | nil => rfl
  | cons entry entries ih =>
      rcases Option.isSome_iff_exists.1 (h [] List.nil_prefix) with ⟨rank, hbefore⟩
      rcases Option.isSome_iff_exists.1 (h [entry] (List.prefix_append [entry] entries))
        with ⟨rank', hafter⟩
      have hstays : Stays (g.enter entry) entries e := fun made hmade =>
        h (entry :: made) (List.cons_prefix_cons.2 ⟨rfl, hmade⟩)
      -- A registration keeps a rank or takes it away, and this one is still there.
      have hstep : (g.enter entry).rankOf? e = g.rankOf? e := by
        have hbefore' : g.rankOf? e = some rank := hbefore
        have hafter' : (g.enter entry).rankOf? e = some rank' := hafter
        rcases rankOf?_of_writes (writes_enter g entry) hbefore' with hsame | hnone
        · rw [hsame, hbefore']
        · rw [hnone] at hafter'
          simp only [reduceCtorEq] at hafter'
      rw [enterAll_cons, ih hstays, hstep]

theorem layer?_enterAll {e : Entry} (h : Stays g entries e) (hlayer : LeavesLayer g entries e) :
    (g.enterAll entries).layer? e = g.layer? e := by
  induction entries generalizing g with
  | nil => rfl
  | cons entry entries ih =>
      have hstep : (g.enter entry).layer? e = g.layer? e := by
        refine layer?_enter g (h [] List.nil_prefix)
          (h [entry] (List.prefix_append [entry] entries)) fun r hr he => ?_
        exact hlayer r (List.mem_cons.2 (.inl (List.mem_singleton.1 hr))) he
      have hstays : Stays (g.enter entry) entries e := fun made hmade =>
        h (entry :: made) (List.cons_prefix_cons.2 ⟨rfl, hmade⟩)
      rw [enterAll_cons, ih hstays fun r hr he => ?_, hstep]
      rw [hstep]
      exact hlayer r (List.mem_cons_of_mem _ hr) he

theorem isRanked_enterAll (h : IsRanked g) (entries : List Registration) :
    IsRanked (g.enterAll entries) := by
  induction entries generalizing g with
  | nil => exact h
  | cons entry entries ih => exact ih (isRanked_of_writes (writes_enter g entry) h)

theorem nextRank_enterAll_le (g : Grammar) (entries : List Registration) :
    (g.enterAll entries).nextRank ≤ g.nextRank + entries.length := by
  induction entries generalizing g with
  | nil => exact Nat.le_refl _
  | cons entry entries ih =>
      have hstep := (nextRank_le_of_writes (writes_enter g entry)).2
      have hrest := ih (g.enter entry)
      rw [enterAll_cons, List.length_cons]
      omega

end Run

/-- After any registrations from the default grammar on, utilities and static rules are
    the ones registered last, and every entry stands where it stood when it was new. -/
theorem remembers_enterAll (mode : DarkMode) (entries : List Registration) :
    Remembers (Grammar.default.withDarkMode mode) entries where
  utility before u later hentries hlater := by
    have hstep := utility?_register (enterAll (Grammar.default.withDarkMode mode) before) u u.stem
    rw [if_pos rfl] at hstep
    rw [hentries, enterAll_append, enterAll_cons, utility?_enterAll hlater]
    exact congrArg (Option.map Ranked.item) hstep
  utilityElse stem h := utility?_enterAll h
  -- The registrations are those before, the one in question and those behind, none of which
  -- touches what it wrote.
  firstRank before u later hentries hnew := by
    have hstep := utility?_register (enterAll (Grammar.default.withDarkMode mode) before) u u.stem
    rw [if_pos rfl, hnew] at hstep
    rw [hentries, enterAll_append, enterAll_cons]
    exact utility?_enterAll_rank later hstep
  keptRank before later hentries stem old hold := by
    rw [hentries, enterAll_append]
    exact utility?_enterAll_rank later hold
  static before r later hentries hlater := by
    have hstep := staticRule?_registerStatic
      (enterAll (Grammar.default.withDarkMode mode) before) r r.name
    rw [if_pos rfl] at hstep
    rw [hentries, enterAll_append, enterAll_cons, staticRule?_enterAll hlater]
    exact congrArg (Option.map Ranked.item) hstep
  hidden before u later hentries hlater := by
    rw [hentries, enterAll_append, enterAll_cons, staticRule?_enterAll hlater]
    exact (staticRule?_register _ u u.stem).trans (if_pos rfl)
  staticElse name h := by
    rw [staticRule?_enterAll h]
    exact staticRule?_of_empty statics_default masked_default mode name
  ranked := isRanked_enterAll (isRanked_withDarkMode isRanked_default mode) entries
  counter := by
    have hle := nextRank_enterAll_le (Grammar.default.withDarkMode mode) entries
    have hdefault : (Grammar.default.withDarkMode mode).nextRank = reservedRanks :=
      nextRank_default
    rw [hdefault] at hle
    exact hle
  order before later hentries e e' he he' := by
    unfold Precedes
    rw [hentries, enterAll_append, rankOf?_enterAll he, rankOf?_enterAll he']
  cascade before later hentries e e' he he' hlayer hlayer' := by
    unfold ComesBefore
    rw [hentries, enterAll_append, rankOf?_enterAll he, rankOf?_enterAll he',
      layer?_enterAll he hlayer, layer?_enterAll he' hlayer']

end Grammar

end UtilityCss
