import UtilityCss.Text.Cut
import UtilityCss.Theme

/-!
# Variants

The names in front of a token's core: `md:`, `hover:`, `dark:`,
`group-hover:`.

A variant either wraps the rule in an at-rule or changes its selector. At-rules
stand outside the selector, so they and the selector's variants do not
interfere: `md:hover:p-4` and `hover:md:p-4` give the same nesting. Within the
selector, pseudo-elements go to the end whatever the order of the names, because
nothing may follow them.

A name is looked up among the breakpoints of the theme first, so a breakpoint
called `dark` or `hover` shadows the variant of that name.

## Main definitions

* `DarkMode`: How the variant `dark` is expressed.
* `Variant`: What a variant does.
* `Variant.ofName?`: The variant of a name.
* `Variant.selector`: A class selector with variants applied.
-/

namespace UtilityCss

/-- How the variant `dark` is expressed. -/
inductive DarkMode where
  /-- By the colour scheme that the reader prefers. -/
  | media
  /-- By a class on an ancestor. -/
  | byClass
deriving DecidableEq, Repr, Inhabited

/-- What a variant does to its rule. -/
inductive Variant where
  /-- The rule is wrapped in an at-rule, which has a rank in the cascade. -/
  | atRule (rule : String) (rank : Nat)
  /-- The pseudo-class is appended to the selector. -/
  | pseudoClass (text : String)
  /-- The pseudo-element is appended after all pseudo-classes. -/
  | pseudoElement (text : String)
  /-- The selector is required of a relative and put in front. -/
  | relative (text : String)
deriving DecidableEq, Repr, Inhabited

namespace Variant

/-- The rank of the first at-rule that is no breakpoint. Breakpoints are ranked
    from 1, so they come before. -/
def firstMediaRank : Nat := 1000

/-- The variants that append a pseudo-class. -/
def pseudoClasses : List (String × String) :=
  [("hover", ":hover"), ("focus", ":focus"), ("focus-within", ":focus-within"),
   ("focus-visible", ":focus-visible"), ("active", ":active"), ("visited", ":visited"),
   ("target", ":target"), ("disabled", ":disabled"), ("enabled", ":enabled"),
   ("checked", ":checked"), ("required", ":required"), ("invalid", ":invalid"),
   ("read-only", ":read-only"), ("empty", ":empty"), ("first", ":first-child"),
   ("last", ":last-child"), ("only", ":only-child"), ("odd", ":nth-child(odd)"),
   ("even", ":nth-child(even)"), ("first-of-type", ":first-of-type"),
   ("last-of-type", ":last-of-type"), ("placeholder-shown", ":placeholder-shown")]

/-- The variants that append a pseudo-element. -/
def pseudoElements : List (String × String) :=
  [("before", "::before"), ("after", "::after"), ("placeholder", "::placeholder"),
   ("selection", "::selection"), ("marker", "::marker"),
   ("file", "::file-selector-button"), ("first-letter", "::first-letter"),
   ("first-line", "::first-line")]

/-- The media features that are no breakpoints, in the order of their ranks,
    which follow the rank of the dark colour scheme. -/
def mediaFeatures : List (String × String) :=
  [("print", "@media print"),
   ("motion-safe", "@media (prefers-reduced-motion: no-preference)"),
   ("motion-reduce", "@media (prefers-reduced-motion: reduce)"),
   ("portrait", "@media (orientation: portrait)"),
   ("landscape", "@media (orientation: landscape)"),
   ("contrast-more", "@media (prefers-contrast: more)")]

/-- The variant `dark`. -/
def dark : DarkMode → Variant
  | .media => .atRule "@media (prefers-color-scheme: dark)" firstMediaRank
  | .byClass => .relative ".dark "

/-- The at-rule of a breakpoint. -/
def ofScreen (s : Screen) : Variant :=
  .atRule s!"@media (min-width: {s.minWidth})" s.rank

/-- The at-rule of a media feature's name, ranked by its place in the list. -/
def ofMediaFeature? (name : String) (rank : Nat) : List (String × String) → Option Variant
  | [] => none
  | (known, rule) :: rest =>
    if known = name then some (.atRule rule rank)
    else ofMediaFeature? name (rank + 1) rest

/-- The variant of a name that asks a state of a relative: `group-hover` with
    the stem `group-`. -/
def ofRelative? (stem before after name : String) : Option Variant :=
  match Text.dropWord? stem.toList name.toList with
  | none => none
  | some state =>
    (pseudoClasses.lookup (String.ofList state)).map fun pseudo =>
      .relative (before ++ pseudo ++ after)

/-- The variant of a name whose meaning does not depend on theme or dark
    mode. -/
def fixed? (name : String) : Option Variant :=
  ofMediaFeature? name (firstMediaRank + 1) mediaFeatures
    <|> (pseudoClasses.lookup name).map .pseudoClass
    <|> (pseudoElements.lookup name).map .pseudoElement
    <|> ofRelative? "group-" ".group" " " name
    <|> ofRelative? "peer-" ".peer" " ~ " name

/-- The variant of a name: a breakpoint of the theme, `dark`, or a fixed
    one. -/
def ofName? (theme : Theme) (mode : DarkMode) (name : String) : Option Variant :=
  match theme.screen? name with
  | some s => some (ofScreen s)
  | none => if name = "dark" then some (dark mode) else fixed? name

/-- The variant wraps the rule in an at-rule. -/
def isAtRule : Variant → Bool
  | .atRule _ _ => true
  | _ => false

/-- The at-rule with its rank, if the variant is one. -/
def atRule? : Variant → Option (String × Nat)
  | .atRule rule rank => some (rule, rank)
  | _ => none

/-- What the variant puts in front of the selector. -/
def before : Variant → String
  | .relative text => text
  | _ => ""

/-- The pseudo-class that the variant appends. -/
def classPart : Variant → String
  | .pseudoClass text => text
  | _ => ""

/-- The pseudo-element that the variant appends. -/
def elementPart : Variant → String
  | .pseudoElement text => text
  | _ => ""

/-- A class selector with variants applied: what goes in front, the class,
    the pseudo-classes and the pseudo-elements, each in the order of the
    variants. -/
def selector (classSelector : String) (variants : List Variant) : String :=
  String.join (variants.map before) ++ classSelector
    ++ String.join (variants.map classPart) ++ String.join (variants.map elementPart)

end Variant

end UtilityCss
