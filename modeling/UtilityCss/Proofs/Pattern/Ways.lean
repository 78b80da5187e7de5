import UtilityCss.Proofs.Pattern.Invariant

/-!
# Ways Through a Program

Where the steps of a pattern lead, and what cannot be avoided on the way.

Code is built for the place where it will stand, and all its jumps are to places in it or
to the one behind its end. So code for several patterns, one after another, is left piece
by piece, and a step that cannot be avoided in one piece cannot be avoided in the whole.

That a step cannot be avoided is not a statement about one way but about all of them, and
ways may loop. It is therefore said of places: some places, the first one among them, are
left only at such a step. Then no way ends without passing one, however long it is. A
choice of two pieces has such places if both pieces have them, a repetition if it cannot
be left out.

## Main definitions

* `Code.AllAt`: What holds of every step at its place.
* `Code.Confined`: The steps lead to each other and behind their end only.
* `Code.Passes`: Every way through the steps passes a certain step.
* `Code.Keeps`: The steps keep a place under a number.

## Theorems

* `Confined.andThen` and the like: One rule for each way of putting steps together.
* `Passes.andThen_right`: What the second piece cannot avoid, the whole cannot.
* `Passes.repeated`: A repetition cannot avoid what its pattern cannot.
* `keeps_repeated`: A repetition keeps only what its pattern keeps.
-/

namespace UtilityCss

namespace Code

/-! ### Steps at their places -/

/-- Every step has a property at the place where it stands. -/
def AllAt (R : Nat → Instruction → Prop) (base : Nat) (steps : List Instruction) : Prop :=
  ∀ k i, steps[k]? = some i → R (base + k) i

variable {R S : Nat → Instruction → Prop} {base : Nat} {steps steps' : List Instruction}
  {i : Instruction}

theorem allAt_nil : AllAt R base [] := fun _ _ h => nomatch h

theorem allAt_cons : AllAt R base (i :: steps) ↔ R base i ∧ AllAt R (base + 1) steps := by
  constructor
  · intro h
    refine ⟨h 0 i rfl, fun k i hk => ?_⟩
    rw [Nat.add_assoc, Nat.add_comm 1]
    exact h (k + 1) i hk
  · rintro ⟨hi, h⟩ (_ | k) j hk
    · exact Option.some.inj hk ▸ hi
    · rw [Nat.add_comm k, ← Nat.add_assoc]
      exact h k j hk

theorem allAt_append : AllAt R base (steps ++ steps') ↔
    AllAt R base steps ∧ AllAt R (base + steps.length) steps' := by
  induction steps generalizing base with
  | nil => exact ⟨fun h => ⟨allAt_nil, h⟩, And.right⟩
  | cons i steps ih =>
      rw [List.cons_append, allAt_cons, ih, allAt_cons, List.length_cons, and_assoc,
        Nat.add_assoc, Nat.add_comm 1]

/-- A property carries over that follows at the places of the steps. -/
theorem AllAt.imp (h : AllAt R base steps)
    (himp : ∀ pc i, base ≤ pc → pc < base + steps.length → R pc i → S pc i) :
    AllAt S base steps := by
  intro k i hk
  rcases List.getElem?_eq_some_iff.1 hk with ⟨hlt, -⟩
  exact himp _ i (Nat.le_add_right _ _) (Nat.add_lt_add_left hlt _) (h k i hk)

/-! ### Steps that lead nowhere else -/

/-- The step leads to places between two others only. -/
def LeadsWithin (first last pc : Nat) (i : Instruction) : Prop :=
  ∀ pc' ∈ i.next pc, first ≤ pc' ∧ pc' ≤ last

/-- The steps lead to each other and behind their end only. -/
def Confined (a : Code) : Prop :=
  ∀ base, AllAt (LeadsWithin base (base + (a base).length)) base (a base)

/-- Confined steps are so between wider bounds. -/
theorem Confined.within {a : Code} (h : Confined a) {base first last : Nat} (hfirst : first ≤ base)
    (hlast : base + (a base).length ≤ last) : AllAt (LeadsWithin first last) base (a base) :=
  (h base).imp fun _ _ _ _ hi pc hpc =>
    ⟨Nat.le_trans hfirst (hi pc hpc).1, Nat.le_trans (hi pc hpc).2 hlast⟩

theorem leadsWithin_split {first second low high pc : Nat} (hfirst : low ≤ first ∧ first ≤ high)
    (hsecond : low ≤ second ∧ second ≤ high) : LeadsWithin low high pc (.split first second) := by
  intro pc' hpc
  rcases List.mem_cons.1 hpc with rfl | hpc
  · exact hfirst
  · rwa [List.mem_singleton.1 hpc]

theorem leadsWithin_choice {greedy : Bool} {inside outside low high pc : Nat}
    (hinside : low ≤ inside ∧ inside ≤ high) (houtside : low ≤ outside ∧ outside ≤ high) :
    LeadsWithin low high pc (choice greedy inside outside) := by
  cases greedy with
  | true => exact leadsWithin_split hinside houtside
  | false => exact leadsWithin_split houtside hinside

theorem leadsWithin_jump {target first last pc : Nat} (h : first ≤ target ∧ target ≤ last) :
    LeadsWithin first last pc (.jump target) := by
  intro pc' hpc
  rwa [List.mem_singleton.1 hpc]

theorem confined_nothing : Confined nothing := fun _ => allAt_nil

/-- A step that leads to the one behind it. -/
theorem confined_single {i : Instruction} (h : ∀ pc, i.next pc = [pc + 1]) :
    Confined (single i) := by
  refine fun base => allAt_cons.2 ⟨fun pc hpc => ?_, allAt_nil⟩
  rw [h, List.mem_singleton] at hpc
  rw [hpc]
  exact ⟨Nat.le_add_right _ _, Nat.le_refl _⟩

variable {a b : Code}

theorem Confined.andThen (ha : Confined a) (hb : Confined b) : Confined (andThen a b) := by
  intro base
  unfold Code.andThen
  simp only [List.length_append]
  refine allAt_append.2 ⟨ha.within ?_ ?_, hb.within ?_ ?_⟩ <;> omega

theorem Confined.orElse (ha : Confined a) (hb : Confined b) : Confined (orElse a b) := by
  intro base
  unfold Code.orElse
  simp only [List.length_cons, List.length_append, List.cons_append]
  refine allAt_cons.2 ⟨leadsWithin_split ?_ ?_, allAt_append.2 ⟨ha.within ?_ ?_,
    allAt_cons.2 ⟨leadsWithin_jump ?_, hb.within ?_ ?_⟩⟩⟩ <;> omega

theorem Confined.optional (ha : Confined a) (greedy : Bool) : Confined (optional greedy a) := by
  intro base
  unfold Code.optional
  simp only [List.length_cons]
  refine allAt_cons.2 ⟨leadsWithin_choice ?_ ?_, ha.within ?_ ?_⟩ <;> omega

theorem Confined.atLeastOnce (ha : Confined a) (greedy : Bool) :
    Confined (atLeastOnce greedy a) := by
  intro base
  unfold Code.atLeastOnce
  simp only [List.length_append, List.length_singleton]
  refine allAt_append.2 ⟨ha.within ?_ ?_, allAt_cons.2 ⟨leadsWithin_choice ?_ ?_, allAt_nil⟩⟩ <;>
    omega

theorem Confined.anyTimes (ha : Confined a) (greedy : Bool) : Confined (anyTimes greedy a) := by
  intro base
  unfold Code.anyTimes
  simp only [List.length_cons, List.length_append, List.cons_append]
  refine allAt_cons.2 ⟨leadsWithin_choice ?_ ?_, allAt_append.2 ⟨ha.within ?_ ?_,
    allAt_cons.2 ⟨leadsWithin_jump ?_, allAt_nil⟩⟩⟩ <;> omega

theorem Confined.times (ha : Confined a) (n : Nat) : Confined (times a n) := by
  induction n with
  | zero => exact confined_nothing
  | succ n ih => exact ha.andThen ih

theorem Confined.atMost (ha : Confined a) (greedy : Bool) (n : Nat) :
    Confined (atMost greedy a n) := by
  induction n with
  | zero => exact confined_nothing
  | succ n ih => exact (ha.andThen ih).optional greedy

theorem Confined.repeated (ha : Confined a) (greedy loose : Bool) (least : Nat)
    (most : Option Nat) : Confined (repeated greedy loose a least most) := by
  cases most with
  | some most => exact (ha.times least).andThen (ha.atMost greedy _)
  | none =>
      cases least with
      | zero =>
          cases loose with
          | true => exact (ha.atLeastOnce greedy).optional greedy
          | false => exact ha.anyTimes greedy
      | succ n => exact (ha.times n).andThen (ha.atLeastOnce greedy)

/-! ### Steps on every way -/

/-- Places that are left at one kind of step only. -/
def LeftAt (gate : Instruction) (places : Nat → Prop) (pc : Nat) (i : Instruction) : Prop :=
  places pc → i = gate ∨ ∀ pc' ∈ i.next pc, places pc'

/-- Every way through the steps passes a certain step: there are places among them, the
    first one included, that are left at such a step only. -/
def Passes (gate : Instruction) (a : Code) : Prop :=
  ∀ base, ∃ places : Nat → Prop, places base ∧
    (∀ pc, places pc → base ≤ pc ∧ pc < base + (a base).length) ∧
    AllAt (LeftAt gate places) base (a base)

variable {gate : Instruction}

/-- Nothing is asked of steps that stand elsewhere. -/
theorem allAt_leftAt_of_not {places : Nat → Prop}
    (h : ∀ k, k < steps.length → ¬places (base + k)) : AllAt (LeftAt gate places) base steps := by
  intro k i hk hplace
  exact absurd hplace (h k (List.getElem?_eq_some_iff.1 hk).1)

/-- There may be more places elsewhere. -/
theorem AllAt.widen {places places' : Nat → Prop} (h : AllAt (LeftAt gate places) base steps)
    (hsub : ∀ pc, places pc → places' pc)
    (hback : ∀ pc, base ≤ pc → pc < base + steps.length → places' pc → places pc) :
    AllAt (LeftAt gate places') base steps := by
  refine h.imp fun pc i hlow hhigh hi hplace => ?_
  rcases hi (hback pc hlow hhigh hplace) with hgate | hnext
  · exact Or.inl hgate
  · exact Or.inr fun pc' hpc' => hsub pc' (hnext pc' hpc')

theorem passes_single (gate : Instruction) : Passes gate (single gate) := by
  refine fun base => ⟨fun pc => pc = base, rfl, fun pc hpc => ?_, ?_⟩
  · rw [hpc]
    exact ⟨Nat.le_refl _, Nat.lt_succ_self _⟩
  · exact allAt_cons.2 ⟨fun _ => Or.inl rfl, allAt_nil⟩

theorem Passes.andThen_left (ha : Passes gate a) (b : Code) : Passes gate (andThen a b) := by
  intro base
  rcases ha base with ⟨places, hbase, hwithin, hleft⟩
  unfold Code.andThen
  simp only [List.length_append]
  refine ⟨places, hbase, fun pc hpc => ?_, allAt_append.2 ⟨hleft, ?_⟩⟩
  · have := hwithin pc hpc
    omega
  · refine allAt_leftAt_of_not fun k _ hplace => ?_
    have := hwithin _ hplace
    omega

/-- Confined steps can be left for those behind them only. -/
theorem Passes.andThen_right (ha : Confined a) (hb : Passes gate b) :
    Passes gate (andThen a b) := by
  intro base
  unfold Code.andThen
  simp only [List.length_append]
  -- The places that are passed on the way are all of the first steps and some of the
  -- others.
  rcases hb (base + (a base).length) with ⟨places, hstart, hwithin, hleft⟩
  refine ⟨fun pc => base ≤ pc ∧ pc < base + (a base).length ∨ places pc, ?_, ?_,
    allAt_append.2 ⟨?_, ?_⟩⟩
  · -- Where there are no first steps, the others start at once.
    by_cases hnil : (a base).length = 0
    · rw [hnil] at hstart
      exact Or.inr hstart
    · exact Or.inl (by omega)
  · rintro pc (hpc | hpc)
    · omega
    · have := hwithin pc hpc
      omega
  · refine (ha base).imp fun pc i _ _ hi _ => Or.inr fun pc' hpc' => ?_
    rcases Nat.lt_or_eq_of_le (hi pc' hpc').2 with hlt | heq
    · exact Or.inl ⟨(hi pc' hpc').1, hlt⟩
    · exact Or.inr (heq ▸ hstart)
  · refine hleft.widen (fun pc => Or.inr) fun pc hlow _ hplace => ?_
    exact hplace.resolve_left (by omega)

theorem Passes.orElse (ha : Passes gate a) (hb : Passes gate b) : Passes gate (orElse a b) := by
  intro base
  unfold Code.orElse
  -- The places that are passed are the choice and those of either side.
  rcases ha (base + 1) with ⟨places, hstart, hwithin, hleft⟩
  rcases hb (base + 1 + (a (base + 1)).length + 1) with ⟨places', hstart', hwithin', hleft'⟩
  simp only [List.length_cons, List.length_append, List.cons_append]
  refine ⟨fun pc => pc = base ∨ places pc ∨ places' pc, Or.inl rfl, ?_,
    allAt_cons.2 ⟨?_, allAt_append.2 ⟨?_, allAt_cons.2 ⟨?_, ?_⟩⟩⟩⟩
  · rintro pc (rfl | hpc | hpc)
    · omega
    · have := hwithin pc hpc
      omega
    · have := hwithin' pc hpc
      omega
  · -- The choice leads to the first of the places on either side.
    refine fun _ => Or.inr fun pc hpc => ?_
    rcases List.mem_cons.1 hpc with rfl | hpc
    · exact Or.inr (Or.inl hstart)
    · rw [List.mem_singleton.1 hpc]
      exact Or.inr (Or.inr hstart')
  · refine hleft.widen (fun pc hpc => Or.inr (Or.inl hpc)) fun pc hlow hhigh hplace => ?_
    rcases hplace with rfl | hplace | hplace
    · omega
    · exact hplace
    · have := hwithin' pc hplace
      omega
  · -- The jump is behind all places of the first side and before those of the second.
    rintro (hplace | hplace | hplace)
    · omega
    · have := hwithin _ hplace
      omega
    · have := hwithin' _ hplace
      omega
  · refine hleft'.widen (fun pc hpc => Or.inr (Or.inr hpc)) fun pc hlow hhigh hplace => ?_
    rcases hplace with rfl | hplace | hplace
    · omega
    · have := hwithin pc hplace
      omega
    · exact hplace

theorem Passes.atLeastOnce (ha : Passes gate a) (greedy : Bool) :
    Passes gate (atLeastOnce greedy a) := by
  intro base
  rcases ha base with ⟨places, hstart, hwithin, hleft⟩
  unfold Code.atLeastOnce
  simp only [List.length_append, List.length_singleton]
  refine ⟨places, hstart, fun pc hpc => ?_, allAt_append.2 ⟨hleft, ?_⟩⟩
  · have := hwithin pc hpc
    omega
  · refine allAt_leftAt_of_not fun k _ hplace => ?_
    have := hwithin _ hplace
    omega

theorem Passes.repeated (hconfined : Confined a) (ha : Passes gate a) (greedy loose : Bool)
    {least : Nat} (hleast : 0 < least) (most : Option Nat) :
    Passes gate (repeated greedy loose a least most) := by
  rcases Nat.exists_eq_add_of_lt hleast with ⟨n, hn⟩
  rw [Nat.zero_add] at hn
  subst hn
  cases most with
  | some most => exact (ha.andThen_left _).andThen_left _
  | none => exact Passes.andThen_right (hconfined.times n) (ha.atLeastOnce greedy)

/-! ### Places kept -/

/-- The step that keeps a place under the number stands among the steps. -/
def Keeps (a : Code) (slot : Nat) : Prop := ∃ base, Instruction.keep slot ∈ a base

variable {slot : Nat}

theorem keeps_single (h : Keeps (single i) slot) : i = .keep slot := by
  rcases h with ⟨base, h⟩
  exact (List.mem_singleton.1 h).symm

theorem not_keeps_nothing : ¬Keeps nothing slot := fun ⟨_, h⟩ => List.not_mem_nil h

theorem choice_ne_keep {greedy : Bool} {inside outside : Nat} :
    Instruction.keep slot ≠ choice greedy inside outside := by
  cases greedy <;> exact Instruction.noConfusion

theorem keeps_andThen (h : Keeps (andThen a b) slot) : Keeps a slot ∨ Keeps b slot := by
  rcases h with ⟨base, h⟩
  rcases List.mem_append.1 h with h | h
  · exact Or.inl ⟨_, h⟩
  · exact Or.inr ⟨_, h⟩

theorem keeps_orElse (h : Keeps (orElse a b) slot) : Keeps a slot ∨ Keeps b slot := by
  rcases h with ⟨base, h⟩
  simp only [Code.orElse, List.cons_append, List.mem_cons, List.mem_append, reduceCtorEq,
    false_or] at h
  rcases h with h | h
  · exact Or.inl ⟨_, h⟩
  · exact Or.inr ⟨_, h⟩

theorem keeps_optional {greedy : Bool} (h : Keeps (optional greedy a) slot) : Keeps a slot := by
  rcases h with ⟨base, h⟩
  rcases List.mem_cons.1 h with h | h
  · exact absurd h choice_ne_keep
  · exact ⟨_, h⟩

theorem keeps_atLeastOnce {greedy : Bool} (h : Keeps (atLeastOnce greedy a) slot) :
    Keeps a slot := by
  rcases h with ⟨base, h⟩
  rcases List.mem_append.1 h with h | h
  · exact ⟨_, h⟩
  · exact absurd (List.mem_singleton.1 h) choice_ne_keep

theorem keeps_anyTimes {greedy : Bool} (h : Keeps (anyTimes greedy a) slot) : Keeps a slot := by
  rcases h with ⟨base, h⟩
  rcases List.mem_append.1 h with h | h
  · rcases List.mem_cons.1 h with h | h
    · exact absurd h choice_ne_keep
    · exact ⟨_, h⟩
  · exact absurd (List.mem_singleton.1 h) Instruction.noConfusion

theorem keeps_times {n : Nat} (h : Keeps (times a n) slot) : Keeps a slot := by
  induction n with
  | zero => exact absurd h not_keeps_nothing
  | succ n ih => exact (keeps_andThen h).elim id ih

theorem keeps_atMost {greedy : Bool} {n : Nat} (h : Keeps (atMost greedy a n) slot) :
    Keeps a slot := by
  induction n with
  | zero => exact absurd h not_keeps_nothing
  | succ n ih => exact (keeps_andThen (keeps_optional h)).elim id ih

theorem keeps_repeated {greedy loose : Bool} {least : Nat} {most : Option Nat}
    (h : Keeps (repeated greedy loose a least most) slot) : Keeps a slot := by
  cases most with
  | some most => exact (keeps_andThen h).elim keeps_times keeps_atMost
  | none =>
      cases least with
      | zero =>
          cases loose with
          | true => exact keeps_atLeastOnce (keeps_optional h)
          | false => exact keeps_anyTimes h
      | succ n => exact (keeps_andThen h).elim keeps_times keeps_atLeastOnce

end Code

end UtilityCss
