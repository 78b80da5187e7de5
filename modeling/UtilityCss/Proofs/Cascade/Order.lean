import UtilityCss.Stylesheet

/-!
# The Order of the Cascade

Rules are compared by their places and then by their selectors, and that is a
total order up to rules that share both.

`RuleOrder.compare` and `Rule.compare` chain comparisons of single fields. The
library knows that a chain of lawful comparisons is lawful, so the only work
here is to show that each link is one it knows: ranks are compared as lists, and
texts as texts. After that `Std.TransCmp` supplies transitivity and totality,
which is all that sorting asks for.

Two different rules with one place and one selector would be a tie, and a tie
would be broken by the order in which rules were found. `ofRules_eq_of_perm` is
the reason why that cannot be seen in a stylesheet of generated rules: where
selectors differ there is only one sorted arrangement, and nothing coincides,
so nothing is dropped.

## Main definitions

* `Rule.Distinct`: No two rules of a list share a selector.

## Theorems

* `precedes_trans`, `precedes_total`: Rules are totally ordered.
* `selector_eq_of_precedes`: Only rules with one selector tie.
* `dropRepeats_of_pairwise`, `dropRepeats_eq_self`: Nothing is dropped where no two rules
  coincide, so nothing where selectors differ.
* `rules_ofRules_of_sorted`: A sorted arrangement is the stylesheet.
* `pairwise_precedes_ofRules`: A stylesheet is sorted.
* `ofRules_perm`: Nothing is lost where selectors differ.
* `ofRules_eq_of_perm`: The order of the rules does not matter.
-/

namespace UtilityCss

theorem compareRanks_eq (as bs : List Nat) :
    compareRanks as bs = List.compareLex compare as bs := by
  induction as generalizing bs with
  | nil => cases bs <;> rfl
  | cons a as ih =>
      cases bs with
      | nil => rfl
      | cons b bs => rw [compareRanks, ih, List.compareLex_cons_cons]

instance : Std.TransCmp compareRanks := by
  have h : compareRanks = List.compareLex compare := by
    funext as bs
    exact compareRanks_eq as bs
  rw [h]
  infer_instance

instance : Std.TransCmp compareTexts :=
  inferInstanceAs (Std.TransCmp (compare : String → String → Ordering))

instance : Std.LawfulEqCmp compareTexts :=
  inferInstanceAs (Std.LawfulEqCmp (compare : String → String → Ordering))

-- A comparison of one field, for records that are compared by several.
theorem transCmp_on {α β : Type} (f : α → β) (cmp : β → β → Ordering) [Std.TransCmp cmp] :
    Std.TransCmp fun a b => cmp (f a) (f b) where
  eq_swap := Std.OrientedCmp.eq_swap
  isLE_trans := Std.TransCmp.isLE_trans

instance : Std.TransCmp RuleOrder.compare :=
  have := transCmp_on (fun o : RuleOrder => o.layer.position) compare
  have := transCmp_on (fun o : RuleOrder => o.tier.position) compare
  have := transCmp_on RuleOrder.atRuleRanks compareRanks
  have := transCmp_on RuleOrder.variantCount compare
  have := transCmp_on RuleOrder.utilityRank compare
  inferInstanceAs <| Std.TransCmp <|
    compareLex (fun a b : RuleOrder => compare a.layer.position b.layer.position) <|
    compareLex (fun a b => compare a.tier.position b.tier.position) <|
    compareLex (fun a b => compareRanks a.atRuleRanks b.atRuleRanks) <|
    compareLex (fun a b => compare a.variantCount b.variantCount)
      fun a b => compare a.utilityRank b.utilityRank

instance : Std.TransCmp Rule.compare :=
  have := transCmp_on Rule.order RuleOrder.compare
  have := transCmp_on Rule.selector compareTexts
  inferInstanceAs <| Std.TransCmp <|
    compareLex (fun a b : Rule => a.order.compare b.order)
      fun a b => compareTexts a.selector b.selector

namespace Rule

theorem precedes_trans (a b c : Rule) (hab : a.precedes b = true) (hbc : b.precedes c = true) :
    a.precedes c = true :=
  Std.TransCmp.isLE_trans hab hbc

theorem precedes_total (a b : Rule) : (a.precedes b || b.precedes a) = true := by
  unfold precedes
  rw [Bool.or_eq_true]
  -- Of the three results only `gt` needs the other direction.
  cases h : a.compare b with
  | lt => exact Or.inl rfl
  | eq => exact Or.inl rfl
  | gt =>
      right
      rw [Std.OrientedCmp.gt_iff_lt.1 h]
      rfl

theorem precedes_of_lt {a b : Rule} (h : a.order.compare b.order = .lt) :
    a.precedes b = true := by
  unfold precedes compare
  rw [h]
  rfl

-- Rules that may stand in either order have the same selector.
theorem selector_eq_of_precedes {a b : Rule} (hab : a.precedes b = true)
    (hba : b.precedes a = true) : a.selector = b.selector := by
  have h : a.compare b = .eq := Std.OrientedCmp.isLE_antisymm hab hba
  unfold compare at h
  rw [Ordering.then_eq_eq] at h
  exact Std.LawfulEqCmp.eq_of_compare h.2

/-- No two rules of the list share a selector. -/
def Distinct (rules : List Rule) : Prop :=
  rules.Pairwise fun a b => a.selector ≠ b.selector

theorem Distinct.perm {rules given : List Rule} (h : Distinct rules) (hp : given.Perm rules) :
    Distinct given :=
  hp.symm.pairwise h fun hne heq => hne heq.symm

theorem Distinct.eq_of_selector_eq {rules : List Rule} (h : Distinct rules) {a b : Rule}
    (ha : a ∈ rules) (hb : b ∈ rules) (hab : a.selector = b.selector) : a = b := by
  induction rules with
  | nil => exact absurd ha List.not_mem_nil
  | cons r rest ih =>
      rcases List.pairwise_cons.1 h with ⟨hr, hrest⟩
      rcases List.mem_cons.1 ha with rfl | ha'
      · rcases List.mem_cons.1 hb with rfl | hb'
        · rfl
        · exact absurd hab (hr b hb')
      · rcases List.mem_cons.1 hb with rfl | hb'
        · exact absurd hab.symm (hr a ha')
        · exact ih hrest ha' hb'

end Rule

open Rule

theorem dropRepeats_of_pairwise {rules : List Rule}
    (h : rules.Pairwise fun a b => a.coincides b = false) : dropRepeats rules = rules := by
  induction rules with
  | nil => rfl
  | cons r rest ih =>
      rcases List.pairwise_cons.1 h with ⟨hr, hrest⟩
      rw [dropRepeats, ih hrest]
      congr 1
      refine List.filter_eq_self.2 fun s hs => ?_
      rw [hr s hs]
      rfl

theorem dropRepeats_eq_self {rules : List Rule} (h : Distinct rules) :
    dropRepeats rules = rules := by
  refine dropRepeats_of_pairwise (List.Pairwise.imp (fun hne => ?_) h)
  rw [coincides, decide_eq_false hne, Bool.false_and]

namespace Stylesheet

/-- A sorted arrangement of rules with different selectors is the stylesheet of
    those rules. -/
theorem rules_ofRules_of_sorted {given sorted : List Rule} (hp : given.Perm sorted)
    (hs : sorted.Pairwise fun a b => a.precedes b = true) (hd : Distinct sorted) :
    (ofRules given).rules = sorted := by
  have hperm : (given.mergeSort precedes).Perm sorted := (List.mergeSort_perm _ _).trans hp
  have heq : given.mergeSort precedes = sorted := by
    -- Sorted lists of the same rules are equal where no two of the rules tie.
    refine List.Perm.eq_of_pairwise (fun a b ha hb hab hba => ?_)
      (List.pairwise_mergeSort precedes_trans precedes_total given) hs hperm
    exact hd.eq_of_selector_eq (hperm.mem_iff.1 ha) hb (selector_eq_of_precedes hab hba)
  unfold ofRules
  rw [heq]
  exact dropRepeats_eq_self hd

variable {rules : List Rule}

theorem ofRules_perm (hd : Distinct rules) : (ofRules rules).rules.Perm rules := by
  have hp : (rules.mergeSort precedes).Perm rules := List.mergeSort_perm _ _
  unfold ofRules
  rw [dropRepeats_eq_self (hd.perm hp)]
  exact hp

theorem pairwise_precedes_ofRules (hd : Distinct rules) :
    (ofRules rules).rules.Pairwise fun a b => a.precedes b = true := by
  unfold ofRules
  rw [dropRepeats_eq_self (hd.perm (List.mergeSort_perm _ _))]
  exact List.pairwise_mergeSort precedes_trans precedes_total rules

/-- The order in which rules with different selectors are given does not
    matter. -/
theorem ofRules_eq_of_perm {given : List Rule} (hd : Distinct rules) (hp : given.Perm rules) :
    ofRules given = ofRules rules := by
  have h : (ofRules given).rules = (ofRules rules).rules :=
    rules_ofRules_of_sorted (hp.trans (ofRules_perm hd).symm) (pairwise_precedes_ofRules hd)
      (hd.perm (ofRules_perm hd))
  cases hg : ofRules given
  cases hr : ofRules rules
  rw [hg, hr] at h
  exact congrArg Stylesheet.mk h

end Stylesheet

end UtilityCss
