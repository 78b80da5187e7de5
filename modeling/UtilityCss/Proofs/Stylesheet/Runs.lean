import Mathlib.Data.List.SplitBy
import UtilityCss.Stylesheet

/-!
# Blocks Are Maximal Runs

The blocks of a stylesheet are the longest stretches of rules under the same
at-rules.

`Block.ofRules` builds blocks from the last rule to the first, and puts a rule
either into the block behind it or into one of its own. What makes the blocks
maximal runs is said without that order: they hold the rules one after the other,
none is empty, the rules of each are under its at-rules, and neighbours differ.
There is only one way to cut a list like that, so it is what splitting the list
of at-rules at every change gives.

## Main definitions

* `Block.AreRunsOf`: Blocks cut rules into maximal runs.

## Theorems

* `areRunsOf_ofRules`: The blocks of rules are their maximal runs.
* `splitBy_atRules`: The runs are where the at-rules stay the same.
-/

namespace UtilityCss

namespace Block

/-- The blocks cut the rules into maximal runs under the same at-rules. -/
structure AreRunsOf (rules : List Rule) (blocks : List Block) : Prop where
  flatten : blocks.flatMap Block.rules = rules
  nonempty : ∀ b ∈ blocks, b.rules ≠ []
  atRules : ∀ b ∈ blocks, ∀ r ∈ b.rules, r.atRules = b.atRules
  separated : blocks.IsChain fun a b => a.atRules ≠ b.atRules

-- A rule joins the run behind it if it is under the same at-rules.
theorem areRunsOf_join {r : Rule} {rules : List Rule} {b : Block} {bs : List Block}
    (h : AreRunsOf rules (b :: bs)) (hr : r.atRules = b.atRules) :
    AreRunsOf (r :: rules) (⟨b.atRules, r :: b.rules⟩ :: bs) where
  flatten := by
    have hflat := h.flatten
    rw [List.flatMap_cons] at hflat ⊢
    rw [← hflat]
    rfl
  nonempty := by
    intro b' hb'
    rcases List.mem_cons.1 hb' with rfl | hb'
    · exact List.cons_ne_nil _ _
    · exact h.nonempty b' (List.mem_cons_of_mem _ hb')
  atRules := by
    intro b' hb' s hs
    rcases List.mem_cons.1 hb' with rfl | hb'
    · rcases List.mem_cons.1 hs with rfl | hs
      · exact hr
      · exact h.atRules b List.mem_cons_self s hs
    · exact h.atRules b' (List.mem_cons_of_mem _ hb') s hs
  separated := by
    have hchain := h.separated
    -- The next run is under other at-rules than the rule, as it is than the run that the
    -- rule joins.
    cases bs with
    | nil => exact List.isChain_singleton _
    | cons b' bs =>
        rw [List.isChain_cons_cons] at hchain ⊢
        exact hchain

-- A rule starts a run if the one behind it is under other at-rules.
theorem areRunsOf_start {r : Rule} {rules : List Rule} {bs : List Block}
    (h : AreRunsOf rules bs) (hr : ∀ b ∈ bs.head?, r.atRules ≠ b.atRules) :
    AreRunsOf (r :: rules) (⟨r.atRules, [r]⟩ :: bs) where
  flatten := by rw [List.flatMap_cons, h.flatten, List.singleton_append]
  nonempty := by
    intro b' hb'
    rcases List.mem_cons.1 hb' with rfl | hb'
    · exact List.cons_ne_nil _ _
    · exact h.nonempty b' hb'
  atRules := by
    intro b' hb' s hs
    rcases List.mem_cons.1 hb' with rfl | hb'
    · rw [List.mem_singleton.1 hs]
    · exact h.atRules b' hb' s hs
  separated := List.isChain_cons.2 ⟨hr, h.separated⟩

/-- The blocks of rules are their maximal runs. -/
theorem areRunsOf_ofRules (rules : List Rule) : AreRunsOf rules (ofRules rules) := by
  induction rules with
  | nil =>
      have hnone : ∀ b : Block, b ∉ ofRules [] := fun _ => List.not_mem_nil
      exact ⟨rfl, fun b hb => absurd hb (hnone b), fun b hb => absurd hb (hnone b),
        List.isChain_nil⟩
  | cons r rules ih =>
      rw [ofRules]
      rcases hblocks : ofRules rules with _ | ⟨b, bs⟩
      · rw [hblocks] at ih
        refine areRunsOf_start ih fun b hb => ?_
        simp only [List.head?_nil, Option.mem_def, reduceCtorEq] at hb
      · rw [hblocks] at ih
        -- The run behind it is the first one, so it is all there is to compare with.
        by_cases hr : r.atRules = b.atRules
        · simp only [if_pos hr]
          exact areRunsOf_join ih hr
        · simp only [if_neg hr]
          refine areRunsOf_start ih fun b' hb' => ?_
          rw [← Option.some.inj hb']
          exact hr

theorem map_atRules {b : Block} (h : ∀ r ∈ b.rules, r.atRules = b.atRules) :
    b.rules.map Rule.atRules = List.replicate b.rules.length b.atRules := by
  rw [List.eq_replicate_iff]
  refine ⟨List.length_map _, fun chain hchain => ?_⟩
  rcases List.mem_map.1 hchain with ⟨r, hr, rfl⟩
  exact h r hr

/-- The runs are where the at-rules stay the same: cutting the list of at-rules at
    every change gives those of the blocks. -/
theorem splitBy_atRules {rules : List Rule} {blocks : List Block} (h : AreRunsOf rules blocks) :
    (rules.map Rule.atRules).splitBy (· == ·)
      = blocks.map fun b => List.replicate b.rules.length b.atRules := by
  have hrun : ∀ b ∈ blocks, List.replicate b.rules.length b.atRules ≠ [] := by
    intro b hb hempty
    rw [List.replicate_eq_nil_iff, List.length_eq_zero_iff] at hempty
    exact h.nonempty b hb hempty
  -- There is only one way to cut a list into runs that differ from their
  -- neighbours.
  rw [List.splitBy_eq_iff]
  refine ⟨?_, ?_, ?_, ?_⟩
  · rw [← h.flatten, List.map_flatMap, List.flatMap_def]
    congr 1
    refine List.map_congr_left fun b hb => ?_
    exact map_atRules (h.atRules b hb)
  · intro hnil
    rcases List.mem_map.1 hnil with ⟨b, hb, hempty⟩
    exact hrun b hb hempty
  · intro run hmem
    rcases List.mem_map.1 hmem with ⟨b, -, rfl⟩
    exact List.isChain_replicate_of_rel _ (beq_self_eq_true _)
  · rw [List.isChain_map]
    refine h.separated.imp_of_mem_imp fun a b ha hb hne => ?_
    refine ⟨hrun a ha, hrun b hb, ?_⟩
    rw [List.getLast_replicate, List.head_replicate]
    exact beq_eq_false_iff_ne.2 hne

/-- Each run opens its at-rules once. -/
theorem flatMap_atRules {rules : List Rule} {blocks : List Block} (h : AreRunsOf rules blocks) :
    ((rules.map Rule.atRules).splitBy (· == ·)).flatMap (fun run => run.headD [])
      = blocks.flatMap Block.atRules := by
  rw [splitBy_atRules h, List.flatMap_map]
  refine List.flatMap_congr fun b hb => ?_
  rcases hlength : b.rules.length with _ | n
  · exact absurd (List.length_eq_zero_iff.1 hlength) (h.nonempty b hb)
  · rfl

end Block

end UtilityCss
