import UtilityCss.Ordered.Set
import UtilityCss.Rule
import UtilityCss.Theme.Scale
import UtilityCss.Value.Arbitrary
import UtilityCss.Value.Transform
import UtilityCss.Variant

/-!
# Grammars

Which class names there are, and what they stand for.

A class name is a static rule, which is a name with fixed declarations, or a
utility with a value: the name up to a hyphen is the utility's stem, and the
rest is looked up as a value. A utility has targets, tried in order, because one
stem can serve two properties (`text-lg` is a size, `text-red-500` a colour).

Registering shadows. A utility takes the place in the cascade of the utility
that it shadows, and so does a static rule; a name that is new goes to the end.
A utility also hides the static rule whose whole name is its stem, until a
static rule of that name is registered again.

The static rules that a grammar starts with all have rank 0 and are only read,
so the registered ones are kept apart from them.

Registration counts ranks with numbers that have no end. The counter of a build
has 32 bits. `Grammar.counted?` says what becomes of a grammar whose counter has
gone past them: with checks the build ends, and without them it counts from 0
again.

## Main definitions

* `Target`, `Utility`, `StaticRule`: What can be registered.
* `Grammar`: Utilities and static rules with their ranks.
* `Grammar.register`, `Grammar.registerStatic`: Registration.
* `Grammar.utility?`, `Grammar.staticRule?`: Look-up.
* `Overflow`, `Grammar.counted?`: What happens when there are no ranks left.
-/

namespace UtilityCss

/-- One way for a utility to use a value. -/
structure Target where
  /-- The axes of the theme that are searched, in order. -/
  axes : List String
  /-- The values used when no axis has the key. -/
  values : Scale
  /-- The properties that all get the value. -/
  properties : List String
  /-- The bracketed values that fit. -/
  accepts : ValueKind
  /-- How a value is computed from a key that is found nowhere. -/
  transform : Transform
  /-- Declarations in front of those properties. -/
  extra : List Declaration
deriving DecidableEq, Inhabited

/-- The declarations of a target for a value. -/
def Target.declarations (t : Target) (value : String) : List Declaration :=
  t.extra ++ t.properties.map fun property => ⟨property, value⟩

/-- A utility: a stem and the targets that it tries, in order. -/
structure Utility where
  /-- The name in front of the value. -/
  stem : String
  /-- The targets. -/
  targets : List Target
  /-- The utility takes negated values. -/
  negatable : Bool
deriving DecidableEq, Inhabited

/-- A class name with fixed declarations. -/
structure StaticRule where
  /-- The class name. -/
  name : String
  /-- The declarations. -/
  declarations : List Declaration
  /-- The layer of the cascade. -/
  layer : Layer
deriving DecidableEq, Repr, Inhabited

/-- Something with a place in the cascade. -/
structure Ranked (α : Type) where
  /-- The place. Later ones override earlier ones. -/
  rank : Nat
  /-- What has the place. -/
  item : α
deriving DecidableEq, Inhabited

/-- The utilities and static rules of a build. -/
structure Grammar where
  /-- The static rules to start with, all of rank 0 and for utilities' layer. -/
  base : SortedMap (List Declaration)
  /-- The utilities, by stem. -/
  utilities : SortedMap (Ranked Utility)
  /-- The registered static rules, by name. -/
  statics : SortedMap (Ranked StaticRule)
  /-- The names that a utility hides. -/
  masked : SortedSet
  /-- The rank of the next new name. -/
  nextRank : Nat
  /-- How the variant `dark` is expressed. -/
  darkMode : DarkMode
deriving Inhabited

namespace Grammar

/-- A grammar with static rules to start with and nothing registered. -/
def ofBase (base : SortedMap (List Declaration)) : Grammar :=
  ⟨base, SortedMap.empty, SortedMap.empty, SortedSet.empty, 1, .media⟩

/-- The grammar with another dark mode. -/
def withDarkMode (g : Grammar) (mode : DarkMode) : Grammar :=
  { g with darkMode := mode }

/-- The utility of a stem. -/
def utility? (g : Grammar) (stem : String) : Option (Ranked Utility) :=
  g.utilities.get? stem

/-- The static rule of a name. Registered ones come first; one that is hidden
    is not found. -/
def staticRule? (g : Grammar) (name : String) : Option (Ranked StaticRule) :=
  match g.statics.get? name with
  | some found => some found
  | none =>
    if name ∈ g.masked then none
    else (g.base.get? name).map fun declarations => ⟨0, name, declarations, .utilities⟩

/-- The number of utilities. -/
def utilityCount (g : Grammar) : Nat := g.utilities.size

/-- The rank for a name, given what it shadows: that one's rank, or the next
    one. -/
def rankFor {α : Type} (g : Grammar) (shadowed : Option (Ranked α)) : Nat :=
  match shadowed with
  | some old => old.rank
  | none => g.nextRank

/-- The rank that is next once a name has its rank. -/
def nextRankAfter {α : Type} (g : Grammar) (shadowed : Option (Ranked α)) : Nat :=
  match shadowed with
  | some _ => g.nextRank
  | none => g.nextRank + 1

/-- A utility put at its stem. -/
def place (g : Grammar) (u : Utility) : Grammar :=
  let shadowed := g.utilities.get? u.stem
  { g with
    utilities := g.utilities.insert u.stem ⟨g.rankFor shadowed, u⟩
    nextRank := g.nextRankAfter shadowed }

/-- A utility registered. It shadows the utility of its stem and hides the
    static rule of that name. -/
def register (g : Grammar) (u : Utility) : Grammar :=
  place { g with statics := g.statics.erase u.stem, masked := g.masked.insert u.stem } u

/-- A static rule registered. It shadows the static rule of its name and is not
    hidden. -/
def registerStatic (g : Grammar) (r : StaticRule) : Grammar :=
  let shadowed := g.statics.get? r.name
  { g with
    statics := g.statics.insert r.name ⟨g.rankFor shadowed, r⟩
    masked := g.masked.erase r.name
    nextRank := g.nextRankAfter shadowed }

/-- How many ranks there are: the counter has 32 bits. -/
def rankLimit : Nat := UInt32.size

/-- What happens when the counter goes past its last number. -/
inductive Overflow where
  /-- The build ends. -/
  | stop
  /-- The counter starts at 0 again. -/
  | wrap
deriving DecidableEq, Repr, Inhabited

/-- What a counter of 32 bits makes of a grammar after a registration. -/
def counted? (overflow : Overflow) (g : Grammar) : Option Grammar :=
  if g.nextRank < rankLimit then some g
  else match overflow with
    | .stop => none
    | .wrap => some { g with nextRank := g.nextRank % rankLimit }

end Grammar

end UtilityCss
