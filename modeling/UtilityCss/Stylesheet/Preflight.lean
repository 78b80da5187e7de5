import UtilityCss.Stylesheet

/-!
# Resets

The rules that take away what browsers add to elements by themselves.

They stand in the base layer in the order of the table, so they come first and
every utility overrides them.

## Main definitions

* `Preflight.resets`: The table.
* `Preflight.rules`: The resets as rules.
-/

namespace UtilityCss

namespace Preflight

/-- The selectors with their declarations. -/
def resets : List (String × List Declaration) :=
  [("*, ::before, ::after",
     [⟨"box-sizing", "border-box"⟩, ⟨"border-width", "0"⟩, ⟨"border-style", "solid"⟩,
      ⟨"border-color", "currentColor"⟩]),
   ("html",
     [⟨"line-height", "1.5"⟩, ⟨"-webkit-text-size-adjust", "100%"⟩, ⟨"tab-size", "4"⟩]),
   ("body", [⟨"margin", "0"⟩, ⟨"line-height", "inherit"⟩]),
   ("h1, h2, h3, h4, h5, h6", [⟨"font-size", "inherit"⟩, ⟨"font-weight", "inherit"⟩]),
   ("a", [⟨"color", "inherit"⟩, ⟨"text-decoration", "inherit"⟩]),
   ("blockquote, dl, dd, h1, h2, h3, h4, h5, h6, hr, figure, p, pre", [⟨"margin", "0"⟩]),
   ("ol, ul", [⟨"list-style", "none"⟩, ⟨"margin", "0"⟩, ⟨"padding", "0"⟩]),
   ("img, svg, video, canvas, audio, iframe, embed, object",
     [⟨"display", "block"⟩, ⟨"vertical-align", "middle"⟩]),
   ("img, video", [⟨"max-width", "100%"⟩, ⟨"height", "auto"⟩]),
   ("button, input, optgroup, select, textarea",
     [⟨"font-family", "inherit"⟩, ⟨"font-size", "100%"⟩, ⟨"line-height", "inherit"⟩,
      ⟨"color", "inherit"⟩, ⟨"margin", "0"⟩, ⟨"padding", "0"⟩])]

/-- The reset in a row of the table. -/
def rule (row : Nat) (reset : String × List Declaration) : Rule :=
  { token := ""
    selector := reset.1
    declarations := reset.2
    atRules := []
    order := ⟨.base, .plain, [], 0, row⟩ }

/-- The resets as rules. -/
def rules : List Rule := resets.mapIdx rule

end Preflight

/-- The stylesheet of some rules, with or without the resets in front. -/
def Stylesheet.assemble (preflight : Bool) (rules : List Rule) : Stylesheet :=
  ofRules (if preflight then Preflight.rules ++ rules else rules)

end UtilityCss
