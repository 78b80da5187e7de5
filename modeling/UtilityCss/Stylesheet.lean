import UtilityCss.Rule

/-!
# Stylesheets

Rules in cascade order, each once.

A stylesheet is sorted by place and then by selector, so it depends on the set
of rules alone and not on the order in which they were found. Of several rules
with one selector under the same at-rules, the first in that order stays.

Neighbouring rules under the same at-rules are written into one block, so a
stylesheet is a list of blocks.

## Main definitions

* `Rule.precedes`: The order of rules in a stylesheet.
* `Stylesheet.ofRules`: The stylesheet of a list of rules.
* `Stylesheet.blocks`: Its rules, with neighbours under the same at-rules
  together.
-/

namespace UtilityCss

/-- Texts compared by code points. -/
def compareTexts (a b : String) : Ordering :=
  if a < b then .lt else if a = b then .eq else .gt

/-- Rules compared by their places, then by their selectors. -/
def Rule.compare (a b : Rule) : Ordering :=
  (a.order.compare b.order).then (compareTexts a.selector b.selector)

/-- A rule may stand before another one. -/
def Rule.precedes (a b : Rule) : Bool := (a.compare b).isLE

/-- Two rules have the same selector under the same at-rules. -/
def Rule.coincides (a b : Rule) : Bool :=
  a.selector = b.selector && a.atRules = b.atRules

/-- A list of rules without those that coincide with an earlier one. -/
def dropRepeats : List Rule → List Rule
  | [] => []
  | r :: rest => r :: (dropRepeats rest).filter fun s => !r.coincides s

/-- Rules in cascade order. -/
structure Stylesheet where
  /-- The rules. -/
  rules : List Rule
deriving DecidableEq, Repr, Inhabited

/-- Neighbouring rules under the same at-rules. -/
structure Block where
  /-- The at-rules, outermost first. -/
  atRules : List String
  /-- The rules. -/
  rules : List Rule
deriving DecidableEq, Repr, Inhabited

/-- A list of rules as blocks, as few as there can be. -/
def Block.ofRules : List Rule → List Block
  | [] => []
  | r :: rest =>
    match ofRules rest with
    | [] => [⟨r.atRules, [r]⟩]
    | b :: bs =>
      if r.atRules = b.atRules then ⟨b.atRules, r :: b.rules⟩ :: bs
      else ⟨r.atRules, [r]⟩ :: b :: bs

namespace Stylesheet

/-- The stylesheet of a list of rules. -/
def ofRules (rules : List Rule) : Stylesheet :=
  ⟨dropRepeats (rules.mergeSort Rule.precedes)⟩

/-- The number of rules. -/
def size (s : Stylesheet) : Nat := s.rules.length

/-- The stylesheet has no rules. -/
def isEmpty (s : Stylesheet) : Bool := s.rules.isEmpty

/-- The blocks of a stylesheet. -/
def blocks (s : Stylesheet) : List Block := Block.ofRules s.rules

end Stylesheet

end UtilityCss
