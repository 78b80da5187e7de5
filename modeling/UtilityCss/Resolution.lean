import UtilityCss.Grammar
import UtilityCss.Token
import UtilityCss.Value.Negation

/-!
# From Tokens to Rules

The rule that a class token stands for, under a theme and a grammar.

A token resolves if it can be taken apart, all its variants are known, and its
core yields declarations: those of a static rule, or those of the first reading
whose utility has a value for the key. A core without a value has the key
`DEFAULT`, which for that reason cannot be written out as a value.

A bracketed value goes to the first target that it fits, and nothing else is
tried for it. Any other key goes through the targets in turn; a target has a
value if the theme, its inline values or its transform give one, and if that
value can be negated where the token asks for it.

## Main definitions

* `Resolution`: What a core resolves to.
* `Resolution.ofCore?`: The resolution of a token's core.
* `Rule.ofToken?`: The rule of a token.
-/

namespace UtilityCss

/-- What a core resolves to. -/
structure Resolution where
  /-- The declarations. -/
  declarations : List Declaration
  /-- The layer of the cascade. -/
  layer : Layer
  /-- The rank of the utility or static rule. -/
  rank : Nat
deriving DecidableEq, Repr, Inhabited

namespace Resolution

/-- The value itself, or its opposite. -/
def signed? (negative : Bool) (value : String) : Option String :=
  if negative then Value.negate? value else some value

/-- The text between brackets, if the key is in brackets. -/
def bracketed? (key : String) : Option String :=
  match Text.dropWord? ['['] key.toList with
  | none => none
  | some rest => (Text.dropLastWord? [']'] rest).map String.ofList

/-- The declarations for a bracketed value: those of the first target that it
    fits. -/
def ofBracketed? (targets : List Target) (negative : Bool) (inner : String) :
    Option (List Declaration) :=
  match ArbitraryValue.parse? inner with
  | none => none
  | some v =>
    match targets.find? fun t => t.accepts.admits v with
    | none => none
    | some t => (signed? negative v.value).map t.declarations

/-- The value that a target has for a key: the theme's, its own, or a computed
    one. -/
def valueOf? (theme : Theme) (t : Target) (key : String) : Option String :=
  theme.lookup? t.axes key <|> t.values.get? key <|> t.transform.valueFor? key

/-- The declarations of a target for a key. -/
def ofTarget? (theme : Theme) (negative : Bool) (key : String) (t : Target) :
    Option (List Declaration) :=
  match valueOf? theme t key with
  | none => none
  | some value => (signed? negative value).map t.declarations

/-- The declarations of a list of targets for a key. -/
def ofKey? (theme : Theme) (targets : List Target) (negative : Bool) (key : String) :
    Option (List Declaration) :=
  match bracketed? key with
  | some inner => ofBracketed? targets negative inner
  | none => targets.findSome? (ofTarget? theme negative key)

/-- The key that a reading asks for. `DEFAULT` stands for no value and is no
    value itself. -/
def keyOf? : Option String → Option String
  | none => some defaultKey
  | some value => if value = defaultKey then none else some value

/-- The resolution of one reading of a core. -/
def ofReading? (theme : Theme) (g : Grammar) (negative : Bool) (r : Token.Reading) :
    Option Resolution :=
  match g.utility? r.stem, keyOf? r.value with
  | some found, some key =>
    if negative && !found.item.negatable then none
    else (ofKey? theme found.item.targets negative key).map fun declarations =>
      ⟨declarations, .utilities, found.rank⟩
  | _, _ => none

/-- The resolution of a static rule. -/
def ofStatic (found : Ranked StaticRule) : Resolution :=
  ⟨found.item.declarations, found.item.layer, found.rank⟩

/-- The resolution of a token's core. A negated core is never a static rule. -/
def ofCore? (theme : Theme) (g : Grammar) (t : Token) : Option Resolution :=
  let readings := (Token.readings t.core).findSome? (ofReading? theme g t.negative)
  if t.negative then readings
  else match g.staticRule? t.core with
    | some found => some (ofStatic found)
    | none => readings

end Resolution

/-- The declaration with the mark of importance, if it is asked for. -/
def Declaration.mark (important : Bool) (d : Declaration) : Declaration :=
  if important then { d with value := d.value ++ " !important" } else d

/-- The tier of a list of variants. -/
def Tier.ofVariants (variants : List Variant) : Tier :=
  if variants.any Variant.isAtRule then .atRule
  else if variants.isEmpty then .plain
  else .selector

namespace Rule

/-- The rule of a token with the given variants and resolution. -/
def assemble (token : String) (important : Bool) (variants : List Variant)
    (r : Resolution) : Rule :=
  let atRules := variants.filterMap Variant.atRule?
  { token
    selector := Variant.selector ("." ++ Token.escape token) variants
    declarations := r.declarations.map (Declaration.mark important)
    atRules := atRules.map Prod.fst
    order :=
      { layer := r.layer
        tier := Tier.ofVariants variants
        atRuleRanks := atRules.map Prod.snd
        variantCount := variants.length
        utilityRank := r.rank } }

/-- The rule of a token, or `none` if the token does not resolve. -/
def ofToken? (theme : Theme) (g : Grammar) (token : String) : Option Rule :=
  match Token.parse? token with
  | none => none
  | some t =>
    match t.variants.mapM (Variant.ofName? theme g.darkMode), Resolution.ofCore? theme g t with
    | some variants, some r => some (assemble token t.important variants r)
    | _, _ => none

end Rule

end UtilityCss
