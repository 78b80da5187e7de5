import UtilityCss.Proofs.Stylesheet.Outline
import UtilityCss.Proofs.Stylesheet.Runs

/-!
# The Outline of a Stylesheet

What a stylesheet is written as, whichever way it is written.

A rule, a block and a stylesheet each have their marks: a block opens its
at-rules, its rules follow, and it closes as many braces as it opened. Gathering
these gives the rules in order, because a block leaves no at-rule open behind it.
That a block holds the at-rules of its first rule only is no loss, since all of
its rules are under them.

This needs texts that a reader can tell from the punctuation around them, and
at-rules that it can tell from selectors. `Rule.IsReadable` says so of a rule. Values
that a configuration gives may have outer blanks, or be nothing else, and a reader
cannot tell these from the blanks that are written around them. `Rule.IsLegible` asks
less of values, and what is read then is the trimmed rule.

## Main definitions

* `Rule.IsReadable`, `Block.IsReadable`: The texts of a rule or a block can be
  told apart.
* `Rule.IsLegible`, `Block.IsLegible`: They can be told apart but for outer blanks of
  values.
* `Rule.trimmed`, `Block.trimmed`, `Stylesheet.trimmed`: A rule, a block and a
  stylesheet without these blanks.
* `Rule.entry`: A rule as a reader sees it.
* `Rule.marks`, `Block.marks`, `Stylesheet.marks`: What a rule, a block and a
  stylesheet are written as.

## Theorems

* `Block.isLegible_of_areRunsOf`: The blocks of legible rules are legible.
* `gather_marks_trimmed`, `gather_marks`: Gathering the marks of a stylesheet gives its
  rules.
* `openedAtRules_marks`: A stylesheet opens the at-rules of each run of rules
  once.
-/

namespace UtilityCss

open Outline

/-- The texts of the rule can be told from what is written around them, its
    at-rules from selectors, and its selector from at-rules. -/
structure Rule.IsReadable (r : Rule) : Prop where
  selector : Text.IsTidy r.selector
  noAtRule : isAtRule r.selector = false
  atRules : ∀ head ∈ r.atRules, Text.IsTidy head ∧ isAtRule head = true
  declarations : ∀ d ∈ r.declarations, Outline.IsTidy d

instance (r : Rule) : Decidable r.IsReadable :=
  decidable_of_iff
    (Text.IsTidy r.selector ∧ isAtRule r.selector = false ∧
      (∀ head ∈ r.atRules, Text.IsTidy head ∧ isAtRule head = true) ∧
      ∀ d ∈ r.declarations, Outline.IsTidy d)
    ⟨fun h => ⟨h.1, h.2.1, h.2.2.1, h.2.2.2⟩,
      fun h => ⟨h.selector, h.noAtRule, h.atRules, h.declarations⟩⟩

/-- The texts of the rule can be told from what is written around them, but for outer
    blanks of values. -/
structure Rule.IsLegible (r : Rule) : Prop where
  selector : Text.IsTidy r.selector
  noAtRule : isAtRule r.selector = false
  atRules : ∀ head ∈ r.atRules, Text.IsTidy head ∧ isAtRule head = true
  declarations : ∀ d ∈ r.declarations, Outline.IsClear d

/-- The rule without the outer blanks of its values. -/
def Rule.trimmed (r : Rule) : Rule :=
  { r with declarations := r.declarations.map Outline.trimmed }

theorem Rule.IsReadable.isLegible {r : Rule} (h : r.IsReadable) : r.IsLegible :=
  ⟨h.selector, h.noAtRule, h.atRules, fun d hd => (h.declarations d hd).isClear⟩

theorem Rule.IsReadable.trimmed_eq {r : Rule} (h : r.IsReadable) : r.trimmed = r := by
  have hdeclarations : r.declarations.map Outline.trimmed = r.declarations :=
    (List.map_congr_left fun d hd => (h.declarations d hd).trimmed_eq).trans (List.map_id _)
  rw [Rule.trimmed, hdeclarations]

/-- The rules of the block are readable, and its at-rules are theirs. -/
structure Block.IsReadable (b : Block) : Prop where
  rules : ∀ r ∈ b.rules, r.IsReadable
  shared : ∀ r ∈ b.rules, r.atRules = b.atRules
  atRules : ∀ head ∈ b.atRules, Text.IsTidy head ∧ isAtRule head = true

/-- The rules of the block are legible, and its at-rules are theirs. -/
structure Block.IsLegible (b : Block) : Prop where
  rules : ∀ r ∈ b.rules, r.IsLegible
  shared : ∀ r ∈ b.rules, r.atRules = b.atRules
  atRules : ∀ head ∈ b.atRules, Text.IsTidy head ∧ isAtRule head = true

/-- The block without the outer blanks of its values. -/
def Block.trimmed (b : Block) : Block := ⟨b.atRules, b.rules.map Rule.trimmed⟩

theorem Block.IsReadable.isLegible {b : Block} (h : b.IsReadable) : b.IsLegible :=
  ⟨fun r hr => (h.rules r hr).isLegible, h.shared, h.atRules⟩

theorem Block.IsReadable.trimmed_eq {b : Block} (h : b.IsReadable) : b.trimmed = b := by
  have hrules : b.rules.map Rule.trimmed = b.rules :=
    (List.map_congr_left fun r hr => (h.rules r hr).trimmed_eq).trans (List.map_id _)
  rw [Block.trimmed, hrules]

/-- The blocks of legible rules are legible. Each has a rule, and that rule has the
    at-rules of the block. -/
theorem Block.isLegible_of_areRunsOf {rules : List Rule} {blocks : List Block}
    (hruns : Block.AreRunsOf rules blocks) (h : ∀ r ∈ rules, r.IsLegible) :
    ∀ b ∈ blocks, b.IsLegible := by
  intro b hb
  have hrules : ∀ r ∈ b.rules, r.IsLegible := by
    intro r hr
    refine h r ?_
    rw [← hruns.flatten]
    exact List.mem_flatMap.2 ⟨b, hb, hr⟩
  -- The at-rules of a block are those of any of its rules, and there is one.
  rcases List.exists_mem_of_ne_nil _ (hruns.nonempty b hb) with ⟨r, hr⟩
  have hatRules := (hrules r hr).atRules
  rw [hruns.atRules b hb r hr] at hatRules
  exact ⟨hrules, hruns.atRules b hb, hatRules⟩

/-- So the blocks of readable rules are readable. -/
theorem Block.isReadable_of_areRunsOf {rules : List Rule} {blocks : List Block}
    (hruns : Block.AreRunsOf rules blocks) (h : ∀ r ∈ rules, r.IsReadable) :
    ∀ b ∈ blocks, b.IsReadable := by
  intro b hb
  have hlegible := isLegible_of_areRunsOf hruns (fun r hr => (h r hr).isLegible) b hb
  refine ⟨fun r hr => h r ?_, hlegible.shared, hlegible.atRules⟩
  rw [← hruns.flatten]
  exact List.mem_flatMap.2 ⟨b, hb, hr⟩

/-- The rule as a reader sees it. -/
def Rule.entry (r : Rule) : Entry := ⟨r.atRules, r.selector, r.declarations⟩

/-- What the rule is written as, apart from its at-rules. -/
def Rule.marks (r : Rule) : List Mark :=
  .opens r.selector :: r.declarations.map .declares ++ [.closes]

/-- What the block is written as. -/
def Block.marks (b : Block) : List Mark :=
  b.atRules.map .opens ++ b.rules.flatMap Rule.marks ++ List.replicate b.atRules.length .closes

/-- What the stylesheet is written as. -/
def Stylesheet.marks (s : Stylesheet) : List Mark := s.blocks.flatMap Block.marks

/-- The stylesheet without the outer blanks of its values. -/
def Stylesheet.trimmed (s : Stylesheet) : Stylesheet := ⟨s.rules.map Rule.trimmed⟩

/-- Trimming leaves the at-rules alone, and so the blocks. -/
theorem Block.ofRules_map_trimmed (rules : List Rule) :
    ofRules (rules.map Rule.trimmed) = (ofRules rules).map Block.trimmed := by
  induction rules with
  | nil => rfl
  | cons r rules ih =>
      rw [List.map_cons, ofRules, ofRules, ih]
      cases ofRules rules with
      | nil => rfl
      | cons b bs =>
          have hatRules : (r.trimmed.atRules = b.trimmed.atRules) = (r.atRules = b.atRules) := rfl
          simp only [List.map_cons, hatRules]
          split <;> rfl

theorem Stylesheet.marks_trimmed (s : Stylesheet) :
    s.trimmed.marks = s.blocks.flatMap fun b => b.trimmed.marks := by
  rw [marks, blocks, trimmed, Block.ofRules_map_trimmed, List.flatMap_map, blocks]

theorem gather_rule_marks {r : Rule} (hr : r.IsLegible) (later : List Mark) :
    gather r.atRules.reverse none (r.trimmed.marks ++ later)
      = (gather r.atRules.reverse none later).map (r.trimmed.entry :: ·) := by
  have hrule := gather_rule hr.noAtRule r.atRules.reverse r.trimmed.declarations later
  rw [List.reverse_reverse] at hrule
  rw [Rule.marks, List.append_assoc, List.singleton_append]
  exact hrule

-- The rules of a block are gathered under the at-rules that are open.
theorem gather_rules {rules : List Rule} {chain : List String}
    (hread : ∀ r ∈ rules, r.IsLegible) (hchain : ∀ r ∈ rules, r.atRules = chain)
    (later : List Mark) :
    gather chain.reverse none (rules.flatMap (fun r => r.trimmed.marks) ++ later)
      = (gather chain.reverse none later).map (rules.map (fun r => r.trimmed.entry) ++ ·) := by
  induction rules with
  | nil => simp only [List.flatMap_nil, List.nil_append, List.map_nil, Option.map_id_fun', id_eq]
  | cons r rules ih =>
      have hfirst : r.atRules = chain := hchain r List.mem_cons_self
      have htail := ih (fun r' hr' => hread r' (List.mem_cons_of_mem _ hr'))
        fun r' hr' => hchain r' (List.mem_cons_of_mem _ hr')
      have hrule := gather_rule_marks (hread r List.mem_cons_self)
        (rules.flatMap (fun r => r.trimmed.marks) ++ later)
      rw [hfirst] at hrule
      rw [List.flatMap_cons, List.append_assoc, hrule, htail, Option.map_map]
      rfl

/-- A block leaves no at-rule open, and its rules are gathered in order. -/
theorem gather_block {b : Block} (h : b.IsLegible) (later : List Mark) :
    gather [] none (b.trimmed.marks ++ later)
      = (gather [] none later).map (b.rules.map (fun r => r.trimmed.entry) ++ ·) := by
  have hheads : ∀ head ∈ b.atRules, isAtRule head = true := fun head hhead =>
    (h.atRules head hhead).2
  -- What the block has put on the stack is what its braces take off.
  have hcloses := gather_closes b.atRules.reverse [] later
  rw [List.length_reverse, List.append_nil] at hcloses
  rw [Block.marks, Block.trimmed, List.append_assoc, List.append_assoc, gather_opens hheads,
    List.append_nil, List.flatMap_map, gather_rules h.rules h.shared, hcloses]

theorem gather_blocks {blocks : List Block} (h : ∀ b ∈ blocks, b.IsLegible) :
    gather [] none (blocks.flatMap fun b => b.trimmed.marks)
      = some ((blocks.flatMap Block.rules).map fun r => r.trimmed.entry) := by
  induction blocks with
  | nil => rfl
  | cons b blocks ih =>
      have htail := ih fun b' hb' => h b' (List.mem_cons_of_mem _ hb')
      rw [List.flatMap_cons, gather_block (h b List.mem_cons_self), htail, List.flatMap_cons,
        List.map_append]
      rfl

/-- Gathering the marks of a trimmed stylesheet gives its rules. -/
theorem gather_marks_trimmed {s : Stylesheet} (h : ∀ r ∈ s.rules, r.IsLegible) :
    gather [] none s.trimmed.marks = some (s.rules.map fun r => r.trimmed.entry) := by
  have hruns := Block.areRunsOf_ofRules s.rules
  have hgather := gather_blocks (Block.isLegible_of_areRunsOf hruns h)
  rw [hruns.flatten] at hgather
  rw [Stylesheet.marks_trimmed]
  exact hgather

theorem Stylesheet.trimmed_eq {s : Stylesheet} (h : ∀ r ∈ s.rules, r.IsReadable) :
    s.trimmed = s := by
  have hrules : s.rules.map Rule.trimmed = s.rules :=
    (List.map_congr_left fun r hr => (h r hr).trimmed_eq).trans (List.map_id _)
  rw [trimmed, hrules]

/-- Gathering the marks of a stylesheet gives its rules. -/
theorem gather_marks {s : Stylesheet} (h : ∀ r ∈ s.rules, r.IsReadable) :
    gather [] none s.marks = some (s.rules.map Rule.entry) := by
  have hgather := gather_marks_trimmed fun r hr => (h r hr).isLegible
  have hentries : s.rules.map (fun r => r.trimmed.entry) = s.rules.map Rule.entry :=
    List.map_congr_left fun r hr => by rw [(h r hr).trimmed_eq]
  rw [Stylesheet.trimmed_eq h, hentries] at hgather
  exact hgather

theorem openedAtRules_rule {r : Rule} (h : r.IsReadable) : openedAtRules r.marks = [] := by
  have hselector : ¬isAtRule r.selector = true := by
    rw [h.noAtRule]
    exact Bool.false_ne_true
  rw [Rule.marks, List.cons_append, openedAtRules, if_neg hselector, openedAtRules_append,
    openedAtRules_declares]
  rfl

theorem openedAtRules_block {b : Block} (h : b.IsReadable) : openedAtRules b.marks = b.atRules := by
  have hopens := openedAtRules_opens fun head hhead => (h.atRules head hhead).2
  have hrules : openedAtRules (b.rules.flatMap Rule.marks) = [] := by
    rw [openedAtRules_flatMap, List.flatMap_eq_nil_iff]
    exact fun r hr => openedAtRules_rule (h.rules r hr)
  rw [Block.marks, openedAtRules_append, openedAtRules_append, hopens, hrules,
    openedAtRules_closes, List.append_nil, List.append_nil]

/-- A stylesheet opens the at-rules of each run of rules once. -/
theorem openedAtRules_marks {s : Stylesheet} (h : ∀ r ∈ s.rules, r.IsReadable) :
    openedAtRules s.marks
      = ((s.rules.map Rule.atRules).splitBy (· == ·)).flatMap fun run => run.headD [] := by
  have hruns := Block.areRunsOf_ofRules s.rules
  have hread := Block.isReadable_of_areRunsOf hruns h
  rw [Block.flatMap_atRules hruns, Stylesheet.marks, openedAtRules_flatMap]
  exact List.flatMap_congr fun b hb => openedAtRules_block (hread b hb)

end UtilityCss
