import UtilityCss.Decimal.Binary64
import UtilityCss.Decimal.Fixed

/-!
# Wording

Numbers as they are written for readers.

## Main definitions

* `Wording.count`: A number with a noun.
* `Wording.byteSize`: A number of bytes.
-/

namespace UtilityCss

namespace Wording

/-- A number with a noun, in the singular for one. -/
def count (n : Nat) (singular plural : String) : String :=
  s!"{n} {if n = 1 then singular else plural}"

/-- A number of bytes: as it is below one KiB, and in KiB with one place from
    there on, which is the double nearest to the quotient. -/
def byteSize (bytes : Nat) : String :=
  if bytes < 1024 then s!"{bytes} B"
  else
    let magnitude := Binary64.magnitudeOfRatio bytes 1024
    String.ofList (Decimal.fixed 1 (Binary64.units magnitude) Binary64.unit) ++ " KiB"

end Wording

end UtilityCss
