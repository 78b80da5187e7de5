import UtilityCss.Diagnostic
import UtilityCss.Ordered.Set

/-!
# Reports

What a build has to tell beside its stylesheet.

## Main definitions

* `Report`: The tokens without a rule, the remarks, and counts.
-/

namespace UtilityCss

/-- What a build has to tell. -/
structure Report where
  /-- The tokens without a rule. -/
  unresolved : SortedSet
  /-- The remarks. -/
  diagnostics : List Diagnostic
  /-- How many pieces of content were read. -/
  filesScanned : Nat
  /-- How many tokens were found. -/
  candidateTokens : Nat
  /-- How many of them have a rule. -/
  rulesEmitted : Nat
  /-- How many of them have none. -/
  unresolvedTokens : Nat
deriving Inhabited

end UtilityCss
