import UtilityCss.Pattern.Search

/-!
# Invariants of a Search

What holds of every match, because no step of the program breaks it.

A search holds many threads, drops some and prefers others. None of that matters for a
statement about a step of the program and the places kept on the way to it. If the
statement holds of a new thread, and every step carries it to the steps that may come
next, then it holds of all threads at any time, whatever the text, and at last of the
places that a match has kept.

## Main definitions

* `Instruction.next`: The steps that may come next.
* `Instruction.kept`: The places kept after a step.
* `Instruction.Carries`: The statement is carried on by every step of a program.

## Theorems

* `settleFrom_holds`, `searchFrom_holds`: Threads that settle, and a whole search.
* `exists_end_of_mem_occurrences`: What holds of the places that a match has kept.
-/

namespace UtilityCss

namespace Instruction

/-- The steps that may come next. -/
def next (pc : Nat) : Instruction → List Nat
  | consume _ => [pc + 1]
  | look _ => [pc + 1]
  | keep _ => [pc + 1]
  | split first second => [first, second]
  | jump target => [target]

/-- The places kept after a step. -/
def kept (index : Nat) (slots : Slots) : Instruction → Slots
  | keep slot => slots.setIfInBounds slot (some index)
  | _ => slots

/-- What is said of a step and the places kept is carried on, whatever step comes next. -/
def Carries (program : Array Instruction) (holds : Nat → Slots → Prop) : Prop :=
  ∀ pc i, program[pc]? = some i → ∀ slots, holds pc slots →
    ∀ index, ∀ pc' ∈ i.next pc, holds pc' (i.kept index slots)

end Instruction

namespace Pattern

variable {program : Array Instruction} {holds : Nat → Slots → Prop}

/-- The places kept belong to a thread that has ended, of which the statement holds. -/
def HoldsAtEnd (program : Array Instruction) (holds : Nat → Slots → Prop) (slots : Slots) :
    Prop :=
  ∃ pc, program[pc]? = none ∧ holds pc slots

/-- The statement holds of all threads. -/
def HoldsOfAll (holds : Nat → Slots → Prop) (threads : List Thread) : Prop :=
  ∀ t ∈ threads, holds t.pc t.slots

theorem HoldsOfAll.cons {t : Thread} {threads : List Thread} (ht : holds t.pc t.slots)
    (h : HoldsOfAll holds threads) : HoldsOfAll holds (t :: threads) :=
  List.forall_mem_cons.2 ⟨ht, h⟩

variable (hcarries : Instruction.Carries program holds)

include hcarries in
/-- Threads that are followed to the steps that wait for a character. -/
theorem settleFrom_holds (here : Spot) (fuel seen : Nat) (threads waiting : List Thread)
    (hthreads : HoldsOfAll holds threads) (hwaiting : HoldsOfAll holds waiting) :
    HoldsOfAll holds (Thread.settleFrom program here fuel seen threads waiting).1 ∧
      ∀ slots, (Thread.settleFrom program here fuel seen threads waiting).2 = some slots →
        HoldsAtEnd program holds slots := by
  -- A thread waits, ends the match, goes on at one place or at two, or is given up.
  fun_induction Thread.settleFrom program here fuel seen threads waiting with
  | case1 seen threads waiting =>
      exact ⟨fun t ht => hwaiting t (List.mem_reverse.1 ht), fun slots h => nomatch h⟩
  | case2 fuel seen waiting =>
      exact ⟨fun t ht => hwaiting t (List.mem_reverse.1 ht), fun slots h => nomatch h⟩
  | case3 fuel seen t rest waiting hseen ih =>
      exact ih (List.forall_mem_cons.1 hthreads).2 hwaiting
  | case4 fuel seen t rest waiting hseen hend =>
      refine ⟨fun t ht => hwaiting t (List.mem_reverse.1 ht), fun slots h => ?_⟩
      rw [← Option.some.inj h]
      exact ⟨t.pc, hend, (List.forall_mem_cons.1 hthreads).1⟩
  | case5 fuel seen t rest waiting hseen _ s hstep ih =>
      rcases List.forall_mem_cons.1 hthreads with ⟨ht, hrest⟩
      exact ih hrest (HoldsOfAll.cons ht hwaiting)
  | case6 fuel seen t rest waiting hseen _ l hstep _ ih
  | case8 fuel seen t rest waiting hseen _ slot hstep _ ih
  | case10 fuel seen t rest waiting hseen _ target hstep ih =>
      -- The thread goes on at the one place that its step leads to.
      rcases List.forall_mem_cons.1 hthreads with ⟨ht, hrest⟩
      have hnext := hcarries t.pc _ hstep _ ht here.index
      exact ih (HoldsOfAll.cons (hnext _ List.mem_cons_self) hrest) hwaiting
  | case7 fuel seen t rest waiting hseen _ l hstep hl ih =>
      exact ih (List.forall_mem_cons.1 hthreads).2 hwaiting
  | case9 fuel seen t rest waiting hseen _ first second hstep ih =>
      rcases List.forall_mem_cons.1 hthreads with ⟨ht, hrest⟩
      have hnext := hcarries t.pc _ hstep _ ht here.index
      have hsecond := HoldsOfAll.cons (t := t.goTo second)
        (hnext _ (List.mem_cons_of_mem _ List.mem_cons_self)) hrest
      exact ih (HoldsOfAll.cons (hnext _ List.mem_cons_self) hsecond) hwaiting

include hcarries in
/-- A thread that has read a character. -/
theorem read?_holds {c : Char} {t t' : Thread} (ht : holds t.pc t.slots)
    (h : Thread.read? program c t = some t') : holds t'.pc t'.slots := by
  unfold Thread.read? at h
  split at h
  · next s hstep =>
    split at h
    · rw [← Option.some.inj h]
      exact hcarries t.pc _ hstep _ ht 0 _ List.mem_cons_self
    · exact absurd h (Option.not_mem_none t')
  · exact absurd h (Option.not_mem_none t')

variable {fresh : Slots} (hfresh : holds 0 fresh)

include hfresh in
/-- A new thread joins the others, as long as there is no match. -/
theorem HoldsOfAll.withNew {threads : List Thread} (h : HoldsOfAll holds threads)
    (found : Option Slots) :
    HoldsOfAll holds (if found.isNone then threads ++ [⟨0, fresh⟩] else threads) := by
  split
  · refine List.forall_mem_append.2 ⟨h, fun t ht => ?_⟩
    rw [List.mem_singleton.1 ht]
    exact hfresh
  · exact h

include hcarries in
theorem settle_holds {here : Spot} {threads waiting : List Thread} {found hit : Option Slots}
    (hthreads : HoldsOfAll holds threads)
    (hfound : ∀ slots, found = some slots → HoldsAtEnd program holds slots)
    (h : Thread.settle program here threads = (waiting, hit)) :
    HoldsOfAll holds waiting ∧
      ∀ slots, (hit <|> found) = some slots → HoldsAtEnd program holds slots := by
  have hsettled := settleFrom_holds hcarries here (threads.length + 2 * program.size + 3) 0
    threads [] hthreads fun t ht => absurd ht List.not_mem_nil
  rw [← Thread.settle, h] at hsettled
  refine ⟨hsettled.1, fun slots hslots => ?_⟩
  cases hit with
  | none => exact hfound slots hslots
  | some hit => exact hsettled.2 slots hslots

include hcarries hfresh in
/-- A search, with the threads that it goes on with and the match that it has so far. -/
theorem searchFrom_holds (index : Nat) (before : Option Char) (threads : List Thread)
    (found : Option Slots) (cs : List Char) (hthreads : HoldsOfAll holds threads)
    (hfound : ∀ slots, found = some slots → HoldsAtEnd program holds slots) :
    ∀ slots, searchFrom program fresh index before threads found cs = some slots →
      HoldsAtEnd program holds slots := by
  -- Threads are settled, the new one among them, and those that wait read the character.
  fun_induction searchFrom program fresh index before threads found cs with
  | case1 index before threads found _ waiting hit _ hsettled =>
      exact (settle_holds hcarries (hthreads.withNew hfresh found) hfound hsettled).2
  | case2 index before threads found _ waiting hit _ c rest _ hover hsettled =>
      exact (settle_holds hcarries (hthreads.withNew hfresh found) hfound hsettled).2
  | case3 index before threads found _ waiting hit _ c rest _ hover hsettled ih =>
      rcases settle_holds hcarries (hthreads.withNew hfresh found) hfound hsettled with
        ⟨hwaiting, hmatch⟩
      refine ih (fun t ht => ?_) hmatch
      rcases List.mem_filterMap.1 ht with ⟨t', ht', hread⟩
      exact read?_holds hcarries (hwaiting t' ht') hread

include hcarries hfresh in
theorem matchesFrom_holds (fuel index : Nat) (before : Option Char) (last : Option Nat)
    (cs : List Char) :
    ∀ m ∈ matchesFrom program fresh fuel index before last cs,
      ∃ slots, m = Match.ofSlots slots ∧ HoldsAtEnd program holds slots := by
  fun_induction matchesFrom program fresh fuel index before last cs with
  | case1 => exact fun m hm => absurd hm List.not_mem_nil
  | case2 => exact fun m hm => absurd hm List.not_mem_nil
  | case3 => exact fun m hm => absurd hm List.not_mem_nil
  | case4 fuel index before last slots m hempty c rest hfound ih => exact ih
  | case5 fuel index before last cs slots hfound m hne passed ih =>
      refine List.forall_mem_cons.2 ⟨⟨slots, rfl, ?_⟩, ih⟩
      exact searchFrom_holds hcarries hfresh index before [] none cs
        (fun t ht => absurd ht List.not_mem_nil) (fun _ h => nomatch h) slots hfound

/-- What every step of a pattern's program carries on, and what holds of a new thread, holds
    of the places that a match has kept. -/
theorem exists_end_of_mem_occurrences {p : Pattern} {holds : Nat → Slots → Prop}
    (hcarries : Instruction.Carries p.program holds) (hfresh : holds 0 freshSlots)
    {cs : List Char} {m : Match} (hm : m ∈ p.occurrences cs) :
    ∃ slots pc, m = Match.ofSlots slots ∧ p.program[pc]? = none ∧ holds pc slots := by
  rcases matchesFrom_holds hcarries hfresh _ _ _ _ _ m hm with ⟨slots, rfl, pc, hpc, h⟩
  exact ⟨slots, pc, rfl, hpc, h⟩

end Pattern

end UtilityCss
