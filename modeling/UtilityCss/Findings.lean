import UtilityCss.Diagnostic
import UtilityCss.Ordered.Set

/-!
# Findings

What scanning finds: the tokens, what could not be read, and how much was.

Findings of several pieces are united. Tokens are a set, so neither their order
nor how the content is cut into pieces matters to them; remarks keep the order
of the pieces. The smaller set of tokens is added to the larger one, which saves
work and shows nowhere.

## Main definitions

* `Findings`: What scanning finds.
* `Findings.merge`: The findings of two pieces together.

## Theorems

* `Findings.merge_eq`: Which set of tokens is added to which makes no difference.
-/

namespace UtilityCss

/-- What scanning finds. -/
structure Findings where
  /-- The tokens. -/
  tokens : SortedSet
  /-- The remarks, in the order of the content. -/
  diagnostics : List Diagnostic
  /-- How many pieces of content were read. -/
  filesScanned : Nat
deriving DecidableEq, Inhabited

namespace Findings

/-- The findings of nothing. -/
def empty : Findings := ⟨SortedSet.empty, [], 0⟩

/-- The findings of two pieces together. -/
def merge (a b : Findings) : Findings :=
  ⟨if a.tokens.size < b.tokens.size then b.tokens.union a.tokens else a.tokens.union b.tokens,
    a.diagnostics ++ b.diagnostics, a.filesScanned + b.filesScanned⟩

theorem merge_eq (a b : Findings) : a.merge b
    = ⟨a.tokens.union b.tokens, a.diagnostics ++ b.diagnostics,
      a.filesScanned + b.filesScanned⟩ := by
  rw [merge, SortedSet.union_comm b.tokens, ite_self]

/-- The findings of several pieces together. -/
def mergeAll (parts : List Findings) : Findings := parts.foldl merge empty

end Findings

end UtilityCss
