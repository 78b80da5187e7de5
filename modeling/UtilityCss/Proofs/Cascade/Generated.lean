import UtilityCss.Build
import UtilityCss.Proofs.Cascade.Order
import UtilityCss.Proofs.Grammar.Registration
import UtilityCss.Proofs.Selector

/-!
# Stylesheets of Generated Rules

What stands in a stylesheet depends on the classes of a page and on nothing
else: not on the order in which they were found, and for two of them not on the
others.

Sorting alone does not give this. Rules that tie keep the order in which they
were found, and of rules that coincide all but one are dropped. Generated rules
do neither, because each has its token written into its selector. So they are
ordered strictly, whatever else they share, and both statements follow from
the one sorted arrangement that `rules_ofRules_of_sorted` speaks of: any
permutation is sorted into it, and a part of it is sorted already.

The resets come first for a different reason. They share the base layer with the
static rules that plugins may put there, and what separates them is the rank
alone. Resets are ranked by their rows, and a registered rule is ranked behind
the default utilities, of which there are more than resets.

## Main definitions

* `withBaseRule`: A design with a static rule in the base layer.

## Theorems

* `distinct_resolveAll`: Generated rules have different selectors.
* `rules_ofRules_of_subset`: The stylesheet of some of the tokens.
* `order_lt_of_ofToken?`: A reset comes before every generated rule.
* `rules_ofRules_resets`: Resets stand in front of a stylesheet.
* `filter_rules_ofRules`: What a stylesheet has for a single token.
* `ofRules_resolveAll`: What a stylesheet of generated rules depends on.
-/

namespace UtilityCss

open Rule

theorem Resolution.rank_of_ofCore? {theme : Theme} {g : Grammar} (hg : g.Reachable) {t : Token}
    {resolution : Resolution} (h : ofCore? theme g t = some resolution) :
    resolution.layer = .utilities ∨ Grammar.reservedRanks ≤ resolution.rank := by
  rcases ofCore?_eq_some h with ⟨found, hfound, rfl⟩ | ⟨r, -, hr⟩
  · exact Grammar.staticRule?_rank hg hfound
  · rcases ofReading?_eq_some hr with ⟨found, key, declarations, -, -, -, -, rfl⟩
    exact Or.inl rfl

namespace Preflight

theorem length_resets_lt : resets.length < Grammar.reservedRanks := by decide

theorem order_of_mem_rules {p : Rule} (hp : p ∈ rules) :
    ∃ row < resets.length, p.order = ⟨.base, .plain, [], 0, row⟩ := by
  rcases List.mem_mapIdx.1 hp with ⟨row, hrow, rfl⟩
  exact ⟨row, hrow, rfl⟩

theorem dot_not_mem_selector : ∀ p ∈ rules, '.' ∉ p.selector.toList := by decide +kernel

theorem distinct_rules : Distinct rules := by
  unfold Distinct
  decide +kernel

theorem pairwise_precedes_rules : rules.Pairwise fun a b => a.precedes b = true := by
  decide +kernel

/-- A reset comes before every generated rule: by its layer, by its tier, or by
    its rank. -/
theorem order_lt_of_ofToken? {theme : Theme} {g : Grammar} (hg : g.Reachable) {token : String}
    {p r : Rule} (hp : p ∈ rules) (hr : Rule.ofToken? theme g token = some r) :
    p.order.compare r.order = .lt := by
  rcases order_of_mem_rules hp with ⟨row, hrow, hp⟩
  rcases ofToken?_eq_some_iff.1 hr with ⟨t, variants, resolution, -, -, hcore, rfl⟩
  rw [hp]
  rcases Resolution.rank_of_ofCore? hg hcore with hlayer | hrank
  · simp only [RuleOrder.compare, assemble, hlayer]
    rfl
  · have hlt : row < resolution.rank :=
      Nat.lt_of_lt_of_le (Nat.lt_trans hrow length_resets_lt) hrank
    -- Without variants the rank is all that is left, and with them the tier
    -- comes before it.
    cases variants with
    | nil =>
        have hcmp : compare row resolution.rank = .lt := Nat.compare_eq_lt.2 hlt
        simp only [RuleOrder.compare, assemble, Tier.ofVariants, List.any_nil, List.isEmpty_nil,
          List.filterMap_nil, List.map_nil, List.length_nil, hcmp]
        cases resolution.layer <;> rfl
    | cons v variants =>
        have htier : Tier.ofVariants (v :: variants) ≠ .plain := by
          rw [Tier.ofVariants]
          split
          · exact Tier.noConfusion
          · simp only [List.isEmpty_cons, Bool.false_eq_true, if_false, ne_eq, reduceCtorEq,
              not_false_eq_true]
        simp only [RuleOrder.compare, assemble]
        cases h : Tier.ofVariants (v :: variants) with
        | plain => exact absurd h htier
        | selector => cases resolution.layer <;> rfl
        | atRule => cases resolution.layer <;> rfl

end Preflight

namespace Design

variable (d : Design) (tokens : SortedSet)

theorem mem_resolveAll {r : Rule} :
    r ∈ (d.resolveAll tokens).1 ↔ ∃ token ∈ tokens, d.ruleOf? token = some r :=
  List.mem_filterMap

/-- Generated rules have different selectors, because a selector tells the
    token. -/
theorem distinct_resolveAll : Distinct (d.resolveAll tokens).1 := by
  refine List.pairwise_filterMap.2 (tokens.sorted.imp fun {s t} hst r hr r' hr' heq => ?_)
  have hs : Selector.token r.selector = s := Selector.token_of_ofToken? hr
  have ht : Selector.token r'.selector = t := Selector.token_of_ofToken? hr'
  rw [heq, ht] at hs
  rw [hs] at hst
  exact String.lt_irrefl s hst

variable {d tokens}

theorem resolveAll_of_subset {part : SortedSet} (hpart : ∀ token ∈ part, token ∈ tokens) :
    (d.resolveAll part).1 = (d.resolveAll tokens).1.filter fun r => r.token ∈ part := by
  -- The part is cut out of the tokens, and resolving goes token by token.
  have hset : part = tokens.filter fun token => token ∈ part := by
    refine SortedSet.ext_mem fun token => ?_
    rw [SortedSet.mem_filter, decide_eq_true_eq]
    exact ⟨fun h => ⟨hpart token h, h⟩, fun h => h.2⟩
  have hlist : part.toList = tokens.toList.filter fun token => token ∈ part :=
    congrArg SortedSet.toList hset
  show part.toList.filterMap d.ruleOf? = (tokens.toList.filterMap d.ruleOf?).filter _
  rw [hlist, List.filterMap_filter, List.filter_filterMap]
  refine congrArg (fun f => tokens.toList.filterMap f) (funext fun token => ?_)
  cases hr : d.ruleOf? token with
  | none => simp only [Option.filter_none, ite_self]
  | some r =>
      have htoken : r.token = token := Rule.token_of_ofToken? hr
      rw [Option.filter_some, htoken]

/-- The stylesheet of some of the tokens is part of that of all tokens. -/
theorem rules_ofRules_of_subset {part : SortedSet} (hpart : ∀ token ∈ part, token ∈ tokens) :
    (Stylesheet.ofRules (d.resolveAll part).1).rules
      = (Stylesheet.ofRules (d.resolveAll tokens).1).rules.filter fun r => r.token ∈ part := by
  have hd := distinct_resolveAll d tokens
  have hperm := Stylesheet.ofRules_perm hd
  refine Stylesheet.rules_ofRules_of_sorted ?_
    ((Stylesheet.pairwise_precedes_ofRules hd).filter _) ((hd.perm hperm).filter _)
  rw [resolveAll_of_subset hpart]
  exact (hperm.filter _).symm

/-- Resets stand in front of a stylesheet, in the order of their table. -/
theorem rules_ofRules_resets (hg : d.grammar.Reachable) {given : List Rule}
    (hgiven : given.Perm (Preflight.rules ++ (d.resolveAll tokens).1)) :
    (Stylesheet.ofRules given).rules
      = Preflight.rules ++ (Stylesheet.ofRules (d.resolveAll tokens).1).rules := by
  have hd := distinct_resolveAll d tokens
  have hperm := Stylesheet.ofRules_perm hd
  refine Stylesheet.rules_ofRules_of_sorted (hgiven.trans (hperm.symm.append_left _)) ?_ ?_
  -- The resets followed by the sorted rules are sorted, and no two share a
  -- selector.
  · refine List.pairwise_append.2 ⟨Preflight.pairwise_precedes_rules,
      Stylesheet.pairwise_precedes_ofRules hd, fun p hp r hr => ?_⟩
    rcases (mem_resolveAll d tokens).1 (hperm.mem_iff.1 hr) with ⟨token, -, htoken⟩
    exact precedes_of_lt (Preflight.order_lt_of_ofToken? hg hp htoken)
  · refine List.pairwise_append.2 ⟨Preflight.distinct_rules, hd.perm hperm, fun p hp r hr heq => ?_⟩
    rcases (mem_resolveAll d tokens).1 (hperm.mem_iff.1 hr) with ⟨token, -, htoken⟩
    -- A generated selector has a class, and that of a reset has none.
    exact Preflight.dot_not_mem_selector p hp (heq ▸ Selector.dot_mem_selector htoken)

theorem resolveAll_singleton (token : String) :
    (d.resolveAll (SortedSet.ofList [token])).1 = (d.ruleOf? token).toList := by
  have hlist : (SortedSet.ofList [token]).toList = [token] := by
    simp only [SortedSet.ofList, SortedSet.ascending, List.mergeSort_singleton,
      SortedSet.squeeze]
  show (SortedSet.ofList [token]).toList.filterMap d.ruleOf? = _
  rw [hlist]
  cases hr : d.ruleOf? token with
  | none => rw [List.filterMap_cons_none hr]; rfl
  | some r => rw [List.filterMap_cons_some hr]; rfl

/-- The rules that a stylesheet has for one of its tokens: the token's rule, if
    it has one. -/
theorem filter_rules_ofRules {token : String} (ht : token ∈ tokens) :
    (Stylesheet.ofRules (d.resolveAll tokens).1).rules.filter (fun r => r.token = token)
      = (d.ruleOf? token).toList := by
  have hone : ∀ s, s ∈ SortedSet.ofList [token] ↔ s = token := fun s => by
    rw [SortedSet.mem_ofList, List.mem_singleton]
  have hsubset : ∀ s ∈ SortedSet.ofList [token], s ∈ tokens := fun s hs => (hone s).1 hs ▸ ht
  have hfilter : (fun r : Rule => decide (r.token = token))
      = fun r : Rule => decide (r.token ∈ SortedSet.ofList [token]) :=
    funext fun r => decide_eq_decide.2 (hone r.token).symm
  rw [hfilter, ← rules_ofRules_of_subset hsubset, resolveAll_singleton]
  -- No rule or one rule is a sorted arrangement of itself.
  cases d.ruleOf? token with
  | none =>
      exact Stylesheet.rules_ofRules_of_sorted (List.Perm.refl _) List.Pairwise.nil
        List.Pairwise.nil
  | some r =>
      exact Stylesheet.rules_ofRules_of_sorted (List.Perm.refl _) (List.pairwise_singleton _ _)
        (List.pairwise_singleton _ _)

/-- What a stylesheet of generated rules depends on. It does not matter in which
    order the rules are given; every resolved token keeps its one rule; the
    stylesheet of some of the tokens is what the stylesheet of all of them has
    for those tokens, in the same order; and added resets stand in front of what
    would be there without them, whatever layers plugins use. -/
theorem ofRules_resolveAll (d : Design) (hg : d.grammar.Reachable) (tokens : SortedSet) :
    (∀ given : List Rule, given.Perm (d.resolveAll tokens).1 →
      Stylesheet.ofRules given = Stylesheet.ofRules (d.resolveAll tokens).1) ∧
    (Stylesheet.ofRules (d.resolveAll tokens).1).rules.Perm (d.resolveAll tokens).1 ∧
    (∀ token ∈ tokens, (Stylesheet.ofRules (d.resolveAll tokens).1).rules.filter
      (fun r => r.token = token) = (d.ruleOf? token).toList) ∧
    (∀ part : SortedSet, (∀ token ∈ part, token ∈ tokens) →
      (Stylesheet.ofRules (d.resolveAll part).1).rules
        = (Stylesheet.ofRules (d.resolveAll tokens).1).rules.filter fun r => r.token ∈ part) ∧
    ∀ given : List Rule, given.Perm (Preflight.rules ++ (d.resolveAll tokens).1) →
      (Stylesheet.ofRules given).rules
        = Preflight.rules ++ (Stylesheet.ofRules (d.resolveAll tokens).1).rules := by
  have hd := distinct_resolveAll d tokens
  refine ⟨?_, Stylesheet.ofRules_perm hd, ?_, ?_, ?_⟩
  · intro given hp
    exact Stylesheet.ofRules_eq_of_perm hd hp
  · intro token ht
    exact filter_rules_ofRules ht
  · intro part hpart
    exact rules_ofRules_of_subset hpart
  · intro given hgiven
    exact rules_ofRules_resets hg hgiven

/-- A rule that a plugin puts into the base layer. -/
def baseRule : StaticRule := ⟨"btn", [⟨"margin", "0"⟩], .base⟩

/-- A design that has the rule. -/
def withBaseRule : Design :=
  ⟨Theme.default, (Grammar.default.withDarkMode .media).enter (.static baseRule)⟩

/-- A page that uses the rule and a utility. -/
def baseRuleTokens : SortedSet := ⟨["btn", "p-4"], by decide⟩

/-- The rule of the plugin stands behind the resets, though all are in the base
    layer. -/
theorem ofRules_resolveAll_withBaseRule :
    withBaseRule.grammar.Reachable ∧
    ((withBaseRule.resolveAll baseRuleTokens).1.map fun r => r.order.layer)
      = [.base, .utilities] ∧
    (Stylesheet.ofRules ((withBaseRule.resolveAll baseRuleTokens).1 ++ Preflight.rules)).rules
      = Preflight.rules
        ++ (Stylesheet.ofRules (withBaseRule.resolveAll baseRuleTokens).1).rules := by
  have hg : withBaseRule.grammar.Reachable :=
    Grammar.Reachable.enter (.static baseRule) (Grammar.Reachable.initial .media)
  refine ⟨hg, by decide +kernel, ?_⟩
  exact (ofRules_resolveAll withBaseRule hg baseRuleTokens).2.2.2.2 _ List.perm_append_comm

end Design

end UtilityCss
