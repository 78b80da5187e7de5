import UtilityCss.Proofs.Token.InPlace
import UtilityCss.Proofs.Value.InPlace
import UtilityCss.Resolution.InPlace

/-!
# Rules without Faults

Asking for the rule of a token never ends in a fault.

Tokens come out of files that hold anything, so a token can be any text, and the theme and the
grammar decide how far its resolution goes. Nothing depends on what they hold. A token, a core and
a bracketed value are each cut without a fault whatever text they are, so it does not matter
either which of them the resolution gets to. What is found in place is the rule that
`Rule.ofToken?` gives.

## Theorems

* `Resolution.ofCoreInPlace_eq`: A core is resolved in place.
* `Rule.ofTokenInPlace_eq`: So is a token.
* `Rule.cutsWithoutFault`: Tokens, cores and bracketed values are taken apart without a fault.
-/

namespace UtilityCss

namespace Resolution

theorem ofBracketedInPlace_eq (targets : List Target) (negative : Bool) (inner : String) :
    ofBracketedInPlace targets negative inner = .ok (ofBracketed? targets negative inner) := by
  unfold ofBracketedInPlace ofBracketed?
  rw [ArbitraryValue.parseInPlace_eq]
  rcases ArbitraryValue.parse? inner with _ | v
  · rfl
  · rw [ok_bind]
    dsimp only
    cases targets.find? fun t => t.accepts.admits v <;> rfl

theorem ofKeyInPlace_eq (theme : Theme) (targets : List Target) (negative : Bool) (key : String) :
    ofKeyInPlace theme targets negative key = .ok (ofKey? theme targets negative key) := by
  unfold ofKeyInPlace ofKey?
  cases bracketed? key with
  | some inner => exact ofBracketedInPlace_eq targets negative inner
  | none => rfl

theorem ofReadingInPlace_eq (theme : Theme) (g : Grammar) (negative : Bool) (r : Token.Reading) :
    ofReadingInPlace theme g negative r = .ok (ofReading? theme g negative r) := by
  unfold ofReadingInPlace ofReading?
  rcases g.utility? r.stem with _ | found
  · rfl
  · rcases keyOf? r.value with _ | key
    · rfl
    · dsimp only
      by_cases hforbidden : (negative && !found.item.negatable) = true
      · rw [if_pos hforbidden, if_pos hforbidden]
        rfl
      · rw [if_neg hforbidden, if_neg hforbidden, ofKeyInPlace_eq]
        rfl

theorem ofReadingsInPlace_eq (theme : Theme) (g : Grammar) (t : Token) :
    ofReadingsInPlace theme g t
      = .ok ((Token.readings t.core).findSome? (ofReading? theme g t.negative)) := by
  rw [ofReadingsInPlace, Token.readingsInPlace_eq]
  have hreading : ofReadingInPlace theme g t.negative
      = fun r => pure (ofReading? theme g t.negative r) :=
    funext (ofReadingInPlace_eq theme g t.negative)
  rw [hreading]
  exact List.findSomeM?_pure

/-- The core of a token is resolved in place. -/
theorem ofCoreInPlace_eq (theme : Theme) (g : Grammar) (t : Token) :
    ofCoreInPlace theme g t = .ok (ofCore? theme g t) := by
  unfold ofCoreInPlace ofCore?
  rw [ofReadingsInPlace_eq]
  dsimp only
  split
  · rfl
  · cases g.staticRule? t.core <;> rfl

end Resolution

/-- The rule of a token is found in place. -/
theorem Rule.ofTokenInPlace_eq (theme : Theme) (g : Grammar) (token : String) :
    ofTokenInPlace theme g token = .ok (ofToken? theme g token) := by
  unfold ofTokenInPlace ofToken?
  rw [Token.parseInPlace_eq]
  rcases Token.parse? token with _ | t
  · rfl
  · rw [ok_bind]
    dsimp only
    rcases t.variants.mapM (Variant.ofName? theme g.darkMode) with _ | variants
    · rfl
    · dsimp only
      rw [Resolution.ofCoreInPlace_eq]
      rcases Resolution.ofCore? theme g t with _ | r <;> rfl

/-- Tokens, cores and bracketed values are taken apart without a fault, whatever texts they are and
    whatever the theme and the grammar hold: all slices lie in their texts, end where they start or
    later, and start and end between characters, and no count of brackets falls below zero. What is
    found is what is found without positions. -/
theorem Rule.cutsWithoutFault :
    (∀ (theme : Theme) (g : Grammar) (token : String),
        ofTokenInPlace theme g token = .ok (ofToken? theme g token)) ∧
      (∀ core, Token.readingsInPlace core = .ok (Token.readings core)) ∧
      ∀ raw, ArbitraryValue.parseInPlace raw = .ok (ArbitraryValue.parse? raw) :=
  ⟨ofTokenInPlace_eq, Token.readingsInPlace_eq, ArbitraryValue.parseInPlace_eq⟩

end UtilityCss
