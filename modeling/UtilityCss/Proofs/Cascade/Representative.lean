import UtilityCss.Proofs.Cascade.Order

/-!
# Which Rule Stays

What a stylesheet keeps of any list of rules.

Rules that are generated from tokens have different selectors, so none of them is dropped. Rules
can be given by hand as well, and then several of them may have one selector under the same
at-rules. Only one of those is kept, and it has to be the right one: the place of a rule in the
cascade decides, and if places are the same, the rule that was given first.

The rules are sorted, and of those that coincide the first one is kept. So the one that is kept
is least, but the rules in front of it and behind it have been moved, and equal rules may occur
several times. That it was the first of the least ones before sorting is due to the sort being
stable. Stability is used in one form: rules that tie with each other are the same list before
and after (`filter_ties_mergeSort`). The first rule that ties and coincides with the kept one is
then the same in both lists.

## Main definitions

* `Rule.Shares`: Two rules have the same selector under the same at-rules.
* `Stylesheet.Represents`: A stylesheet keeps the right rules of a list.

## Theorems

* `mem_dropRepeats_iff`: What is kept is the first of its kind.
* `filter_ties_mergeSort`: Sorting keeps the order of rules that tie.
* `exists_first_of_mem`: What a stylesheet keeps came first among the least of its kind.
* `represents_ofRules`: A stylesheet keeps the right rules.
-/

namespace UtilityCss

namespace Rule

/-- Two rules have the same selector under the same at-rules. -/
def Shares (a b : Rule) : Prop := a.selector = b.selector ∧ a.atRules = b.atRules

theorem coincides_iff {a b : Rule} : a.coincides b = true ↔ a.Shares b := by
  rw [coincides, Bool.and_eq_true, decide_eq_true_eq, decide_eq_true_eq, Shares]

theorem Shares.trans {a b c : Rule} (h : a.Shares b) (h' : b.Shares c) : a.Shares c :=
  ⟨h.1.trans h'.1, h.2.trans h'.2⟩

end Rule

namespace Stylesheet

/-- A stylesheet keeps the right rules of a list. -/
structure Represents (sheet : Stylesheet) (given : List Rule) : Prop where
  /-- The rules ascend by place, and by selector where places are the same. -/
  sorted : sheet.rules.Pairwise fun a b => a.compare b ≠ .gt
  /-- No two rules have one selector under the same at-rules. -/
  once : sheet.rules.Pairwise fun a b => ¬ a.Shares b
  /-- Every selector under every at-rules that was given is there. -/
  complete : ∀ r ∈ given, ∃ s ∈ sheet.rules, s.Shares r
  /-- Every rule was given, and of those with its selector under its at-rules it is the least
      one, and the first one of the least. -/
  first : ∀ s ∈ sheet.rules, ∃ before after, given = before ++ s :: after ∧
    (∀ r ∈ before, r.Shares s → s.compare r = .lt) ∧
    ∀ r ∈ after, r.Shares s → s.compare r ≠ .gt

end Stylesheet

open Rule

/-! ### Dropping repeats -/

theorem dropRepeats_sublist (rules : List Rule) : (dropRepeats rules).Sublist rules := by
  induction rules with
  | nil => exact List.Sublist.refl _
  | cons r rest ih => exact (List.filter_sublist.trans ih).cons_cons r

theorem pairwise_dropRepeats (rules : List Rule) :
    (dropRepeats rules).Pairwise fun a b => ¬ a.Shares b := by
  induction rules with
  | nil => exact List.Pairwise.nil
  | cons r rest ih =>
      refine List.pairwise_cons.2 ⟨fun s hs hshares => ?_, ih.filter _⟩
      have hnot := (List.mem_filter.1 hs).2
      rw [coincides_iff.2 hshares] at hnot
      cases hnot

/-- What is kept is the first of its kind. -/
theorem mem_dropRepeats_iff {rules : List Rule} {s : Rule} :
    s ∈ dropRepeats rules ↔
      ∃ before after, rules = before ++ s :: after ∧ ∀ r ∈ before, ¬ r.Shares s := by
  induction rules with
  | nil => simp [dropRepeats]
  | cons r rest ih =>
      -- A rule is kept if no earlier one has dropped it, and the first one drops all of its
      -- kind behind it.
      rw [dropRepeats, List.mem_cons, List.mem_filter, ih]
      constructor
      · rintro (rfl | ⟨⟨before, after, rfl, hbefore⟩, hr⟩)
        · exact ⟨[], rest, rfl, fun _ hmem => absurd hmem List.not_mem_nil⟩
        · refine ⟨r :: before, after, rfl, List.forall_mem_cons.2 ⟨fun hshares => ?_, hbefore⟩⟩
          rw [coincides_iff.2 hshares] at hr
          cases hr
      · rintro ⟨before, after, heq, hbefore⟩
        cases before with
        | nil => exact Or.inl (List.cons.inj heq).1.symm
        | cons first before =>
            cases heq
            rcases List.forall_mem_cons.1 hbefore with ⟨hfirst, hbefore⟩
            refine Or.inr ⟨⟨before, after, rfl, hbefore⟩, ?_⟩
            rw [Bool.not_eq_true', ← Bool.not_eq_true, coincides_iff]
            exact hfirst

/-- Of every kind one rule is kept. -/
theorem exists_mem_dropRepeats {rules : List Rule} {r : Rule} (h : r ∈ rules) :
    ∃ s ∈ dropRepeats rules, s.Shares r := by
  induction rules with
  | nil => exact absurd h List.not_mem_nil
  | cons first rest ih =>
      by_cases hfirst : first.Shares r
      · exact ⟨first, List.mem_cons_self, hfirst⟩
      · have hne : r ≠ first := by
          rintro rfl
          exact hfirst ⟨rfl, rfl⟩
        rcases ih ((List.mem_cons.1 h).resolve_left hne) with ⟨s, hs, hshares⟩
        refine ⟨s, List.mem_cons_of_mem _ (List.mem_filter.2 ⟨hs, ?_⟩), hshares⟩
        rw [Bool.not_eq_true', ← Bool.not_eq_true, coincides_iff]
        exact fun h => hfirst (h.trans hshares)

theorem dropRepeats_eq_self_of_pairwise {rules : List Rule}
    (h : rules.Pairwise fun a b => ¬ a.Shares b) : dropRepeats rules = rules :=
  dropRepeats_of_pairwise (h.imp fun hnot => eq_false_of_ne_true fun hab =>
    hnot (coincides_iff.1 hab))

/-! ### Sorting -/

theorem precedes_iff {a b : Rule} : a.precedes b = true ↔ a.compare b ≠ .gt := by
  rw [precedes]
  cases a.compare b <;> decide

/-- Sorting keeps the order of rules that tie with one rule. -/
theorem filter_ties_mergeSort (rules : List Rule) (s : Rule) :
    (rules.mergeSort precedes).filter (fun r => s.compare r = .eq)
      = rules.filter fun r => s.compare r = .eq := by
  have hties : (rules.filter fun r => s.compare r = .eq).Pairwise
      fun a b => a.precedes b = true := by
    refine List.pairwise_filter.2 (List.pairwise_of_forall fun a b ha hb => ?_)
    have hab : a.compare b = .eq := Std.TransCmp.eq_trans
      (Std.OrientedCmp.eq_symm (of_decide_eq_true ha)) (of_decide_eq_true hb)
    rw [precedes, hab]
    rfl
  have hsublist := (List.sublist_mergeSort precedes_trans precedes_total hties
    List.filter_sublist).filter fun r => s.compare r = .eq
  rw [List.filter_filter] at hsublist
  simp only [Bool.and_self] at hsublist
  exact (hsublist.eq_of_length ((List.mergeSort_perm rules precedes).filter _).length_eq.symm).symm

/-- What is kept of sorted rules came first among the least of its kind. -/
theorem exists_first_of_mem {given : List Rule} {s : Rule}
    (h : s ∈ dropRepeats (given.mergeSort precedes)) :
    ∃ before after, given = before ++ s :: after ∧
      (∀ r ∈ before, r.Shares s → s.compare r = .lt) ∧
      ∀ r ∈ after, r.Shares s → s.compare r ≠ .gt := by
  rcases mem_dropRepeats_iff.1 h with ⟨front, back, hsorted, hfront⟩
  -- Nothing of its kind is less, because whatever is less stands in front of it.
  have hleast : ∀ r ∈ given, r.Shares s → s.compare r ≠ .gt := by
    intro r hr hshares
    have hmem : r ∈ front ++ s :: back :=
      hsorted ▸ (List.mergeSort_perm given precedes).mem_iff.2 hr
    have hpairwise := List.pairwise_mergeSort precedes_trans precedes_total given
    rw [hsorted] at hpairwise
    rcases List.mem_append.1 hmem with hr | hr
    · exact absurd hshares (hfront r hr)
    · rcases List.mem_cons.1 hr with rfl | hr
      · have hself : r.compare r = .eq := Std.ReflCmp.compare_self
        rw [hself]
        decide
      · exact precedes_iff.1 ((List.pairwise_cons.1 (List.pairwise_append.1 hpairwise).2.1).1 r hr)
  -- It is the first one that ties with it and is of its kind, after sorting and so before.
  have hkind : given.filter (fun r => r.coincides s && s.compare r = .eq)
      = s :: back.filter fun r => r.coincides s && s.compare r = .eq := by
    have hself : (s.coincides s && decide (s.compare s = .eq)) = true := by
      rw [Bool.and_eq_true, coincides_iff, decide_eq_true_eq]
      exact ⟨⟨rfl, rfl⟩, Std.ReflCmp.compare_self⟩
    have hnone : front.filter (fun r => r.coincides s && s.compare r = .eq) = [] := by
      refine List.filter_eq_nil_iff.2 fun r hr htrue => ?_
      exact hfront r hr (coincides_iff.1 (Bool.and_eq_true_iff.1 htrue).1)
    rw [← List.filter_filter, ← filter_ties_mergeSort, List.filter_filter, hsorted,
      List.filter_append, hnone, List.nil_append, List.filter_cons, if_pos hself]
  rcases List.filter_eq_cons_iff.1 hkind with ⟨before, after, rfl, hbefore, -, -⟩
  refine ⟨before, after, rfl, fun r hr hshares => ?_, fun r hr => ?_⟩
  · have hle := hleast r (List.mem_append_left _ hr) hshares
    have hne : s.compare r ≠ .eq := fun heq => hbefore r hr (by
      rw [Bool.and_eq_true, coincides_iff, decide_eq_true_eq]
      exact ⟨hshares, heq⟩)
    cases hcompare : s.compare r with
    | lt => rfl
    | eq => exact absurd hcompare hne
    | gt => exact absurd hcompare hle
  · exact hleast r (List.mem_append_right _ (List.mem_cons_of_mem _ hr))

namespace Stylesheet

/-- A stylesheet keeps the right rules of any list, and making a stylesheet of its rules again
    changes nothing. -/
theorem represents_ofRules (given : List Rule) :
    (ofRules given).Represents given ∧ ofRules (ofRules given).rules = ofRules given := by
  have hsorted : (ofRules given).rules.Pairwise fun a b => a.precedes b = true :=
    (List.pairwise_mergeSort precedes_trans precedes_total given).sublist (dropRepeats_sublist _)
  have honce : (ofRules given).rules.Pairwise fun a b => ¬ a.Shares b := pairwise_dropRepeats _
  refine ⟨⟨hsorted.imp precedes_iff.1, honce, fun r hr => ?_, fun s hs => exists_first_of_mem hs⟩,
    ?_⟩
  · exact exists_mem_dropRepeats ((List.mergeSort_perm given precedes).mem_iff.2 hr)
  · have hrules : dropRepeats ((ofRules given).rules.mergeSort precedes)
        = (ofRules given).rules := by
      rw [List.mergeSort_of_pairwise hsorted, dropRepeats_eq_self_of_pairwise honce]
    exact congrArg Stylesheet.mk hrules

end Stylesheet

end UtilityCss
