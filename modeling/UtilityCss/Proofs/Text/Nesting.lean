/-!
# Nesting Depth

How deep a text stands in brackets of one kind when its end is reached.

Both halves of "balanced" are one number that may be missing: a bracket that
closes what is not open leaves no depth at all, and a text is balanced when it
starts and ends at depth zero.

## Main definitions

* `depthAfter`: The brackets open at the end of a text.
-/

namespace UtilityCss

namespace Text

/-- The brackets open at the end of a text that starts with the given number
    open, or `none` if one closes that is not open. -/
def depthAfter (opens closes : Char) : Nat → List Char → Option Nat
  | depth, [] => some depth
  | depth, c :: cs =>
    if c = opens then depthAfter opens closes (depth + 1) cs
    else if c = closes then
      match depth with
      | 0 => none
      | depth + 1 => depthAfter opens closes depth cs
    else depthAfter opens closes depth cs

end Text

end UtilityCss
