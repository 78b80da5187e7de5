import UtilityCss.Resolution
import UtilityCss.Token.InPlace
import UtilityCss.Value.InPlace

/-!
# From Tokens to Rules in Place

The rule of a class token, with all texts taken apart in place.

A token of any text can be asked for its rule, and a fault in any of the cuts on the way would
end the build. The steps are those of `Rule.ofToken?`, in an order that does no work in vain: a
variant that is not known ends the resolution before the core is looked at, and a static rule
before the core is cut.

## Main definitions

* `Resolution.ofCoreInPlace`: The resolution of a token's core.
* `Rule.ofTokenInPlace`: The rule of a token.
-/

namespace UtilityCss

namespace Resolution

/-- The declarations for a bracketed value: those of the first target that it fits. -/
def ofBracketedInPlace (targets : List Target) (negative : Bool) (inner : String) :
    Except Text.Fault (Option (List Declaration)) := do
  match ← ArbitraryValue.parseInPlace inner with
  | none => return none
  | some v =>
    match targets.find? fun t => t.accepts.admits v with
    | none => return none
    | some t => return (signed? negative v.value).map t.declarations

/-- The declarations of a list of targets for a key. -/
def ofKeyInPlace (theme : Theme) (targets : List Target) (negative : Bool) (key : String) :
    Except Text.Fault (Option (List Declaration)) :=
  match bracketed? key with
  | some inner => ofBracketedInPlace targets negative inner
  | none => return targets.findSome? (ofTarget? theme negative key)

/-- The resolution of one reading of a core. -/
def ofReadingInPlace (theme : Theme) (g : Grammar) (negative : Bool) (r : Token.Reading) :
    Except Text.Fault (Option Resolution) :=
  match g.utility? r.stem, keyOf? r.value with
  | some found, some key =>
    if negative && !found.item.negatable then return none
    else do
      let declarations? ← ofKeyInPlace theme found.item.targets negative key
      return declarations?.map fun declarations => ⟨declarations, .utilities, found.rank⟩
  | _, _ => return none

/-- The resolution of the first reading of a core that has one. -/
def ofReadingsInPlace (theme : Theme) (g : Grammar) (t : Token) :
    Except Text.Fault (Option Resolution) := do
  let readings ← Token.readingsInPlace t.core
  readings.findSomeM? (ofReadingInPlace theme g t.negative)

/-- The resolution of a token's core. A negated core is never a static rule. -/
def ofCoreInPlace (theme : Theme) (g : Grammar) (t : Token) :
    Except Text.Fault (Option Resolution) :=
  if t.negative then ofReadingsInPlace theme g t
  else match g.staticRule? t.core with
    | some found => return some (ofStatic found)
    | none => ofReadingsInPlace theme g t

end Resolution

/-- The rule of a token, or `none` if the token does not resolve. -/
def Rule.ofTokenInPlace (theme : Theme) (g : Grammar) (token : String) :
    Except Text.Fault (Option Rule) := do
  match ← Token.parseInPlace token with
  | none => return none
  | some t =>
    match t.variants.mapM (Variant.ofName? theme g.darkMode) with
    | none => return none
    | some variants =>
      let resolution? ← Resolution.ofCoreInPlace theme g t
      return resolution?.map (assemble token t.important variants)

end UtilityCss
