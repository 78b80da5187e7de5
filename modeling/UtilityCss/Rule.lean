/-!
# Rules

The rules of a stylesheet and their places in the cascade.

Where two rules apply to one element the later one wins, so a rule carries its
place: the layer first, then whether it has variants and of which kind, then
the ranks of its at-rules, the number of its variants, and the rank of its
utility. Places are compared field by field in that order. Rules without
variants come before the others, so a variant always overrides; breakpoints
sort by their ranks, so a wider one overrides a narrower one.

## Main definitions

* `Declaration`: A property and its value.
* `Layer`, `Tier`: The two outermost steps of the cascade.
* `RuleOrder`: The place of a rule in the cascade.
* `RuleOrder.compare`: Places compared field by field.
* `Rule`: A rule with its at-rules and its place.
-/

namespace UtilityCss

/-- A property and its value. -/
structure Declaration where
  /-- The property. -/
  property : String
  /-- The value. -/
  value : String
deriving DecidableEq, Repr, Inhabited

/-- The layers of the cascade. Later layers override earlier ones. -/
inductive Layer where
  /-- Resets. -/
  | base
  /-- Named groups of declarations. -/
  | components
  /-- Utilities. -/
  | utilities
deriving DecidableEq, Repr, Inhabited

/-- The position of a layer. -/
def Layer.position : Layer → Nat
  | .base => 0
  | .components => 1
  | .utilities => 2

/-- Which kind of variants a rule has. -/
inductive Tier where
  /-- None. -/
  | plain
  /-- Variants of the selector only. -/
  | selector
  /-- At least one at-rule. -/
  | atRule
deriving DecidableEq, Repr, Inhabited

/-- The position of a tier. -/
def Tier.position : Tier → Nat
  | .plain => 0
  | .selector => 1
  | .atRule => 2

/-- The place of a rule in the cascade. -/
structure RuleOrder where
  /-- The layer. -/
  layer : Layer
  /-- The kind of its variants. -/
  tier : Tier
  /-- The ranks of its at-rules, outermost first. -/
  atRuleRanks : List Nat
  /-- The number of its variants. -/
  variantCount : Nat
  /-- The rank of its utility. -/
  utilityRank : Nat
deriving DecidableEq, Repr, Inhabited

/-- Lists of numbers compared as words in a dictionary. -/
def compareRanks : List Nat → List Nat → Ordering
  | [], [] => .eq
  | [], _ :: _ => .lt
  | _ :: _, [] => .gt
  | a :: as, b :: bs => (compare a b).then (compareRanks as bs)

/-- Places compared field by field. -/
def RuleOrder.compare (a b : RuleOrder) : Ordering :=
  (Ord.compare a.layer.position b.layer.position).then <|
  (Ord.compare a.tier.position b.tier.position).then <|
  (compareRanks a.atRuleRanks b.atRuleRanks).then <|
  (Ord.compare a.variantCount b.variantCount).then <|
  Ord.compare a.utilityRank b.utilityRank

/-- A rule of a stylesheet. -/
structure Rule where
  /-- The class token that the rule comes from; empty for a reset. -/
  token : String
  /-- The selector. -/
  selector : String
  /-- The declarations, in order. -/
  declarations : List Declaration
  /-- The at-rules around it, outermost first. -/
  atRules : List String
  /-- Its place in the cascade. -/
  order : RuleOrder
deriving DecidableEq, Repr, Inhabited

end UtilityCss
