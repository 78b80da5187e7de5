import UtilityCss.Grammar

/-!
# The Default Grammar

The utilities and static rules that a build starts from.

The order of the utilities is their order in the cascade, so a utility for one
side of a box comes after the one for all sides: `px-2` overrides `p-4`. The
order of the static rules says nothing, because they share one rank.

## Main definitions

* `DefaultGrammar.statics`: The static rules.
* `DefaultGrammar.utilities`: The utilities in cascade order.
* `Grammar.default`: The grammar of both.
-/

namespace UtilityCss

namespace DefaultGrammar

/-- Names that each set one property, with the values that they give it. -/
def single (property : String) (names : List (String × String)) :
    List (String × List Declaration) :=
  names.map fun (name, value) => (name, [⟨property, value⟩])

/-- Names that set one property. -/
def singles : List (String × List Declaration) :=
  single "display" [("block", "block"), ("inline-block", "inline-block"), ("inline", "inline"),
    ("flex", "flex"), ("inline-flex", "inline-flex"), ("grid", "grid"),
    ("inline-grid", "inline-grid"), ("table", "table"), ("contents", "contents"),
    ("hidden", "none")] ++
  single "position" [("static", "static"), ("fixed", "fixed"), ("absolute", "absolute"),
    ("relative", "relative"), ("sticky", "sticky")] ++
  single "visibility" [("visible", "visible"), ("invisible", "hidden")] ++
  single "flex-direction" [("flex-row", "row"), ("flex-row-reverse", "row-reverse"),
    ("flex-col", "column"), ("flex-col-reverse", "column-reverse")] ++
  single "flex-wrap" [("flex-wrap", "wrap"), ("flex-nowrap", "nowrap")] ++
  single "flex" [("flex-1", "1 1 0%"), ("flex-auto", "1 1 auto"), ("flex-none", "none")] ++
  single "flex-grow" [("grow", "1"), ("grow-0", "0")] ++
  single "flex-shrink" [("shrink", "1"), ("shrink-0", "0")] ++
  single "align-items" [("items-start", "flex-start"), ("items-end", "flex-end"),
    ("items-center", "center"), ("items-baseline", "baseline"), ("items-stretch", "stretch")] ++
  single "justify-content" [("justify-start", "flex-start"), ("justify-end", "flex-end"),
    ("justify-center", "center"), ("justify-between", "space-between"),
    ("justify-around", "space-around"), ("justify-evenly", "space-evenly")] ++
  single "align-self" [("self-auto", "auto"), ("self-center", "center")] ++
  single "overflow" [("overflow-auto", "auto"), ("overflow-hidden", "hidden"),
    ("overflow-visible", "visible"), ("overflow-scroll", "scroll")] ++
  single "overflow-x" [("overflow-x-auto", "auto")] ++
  single "overflow-y" [("overflow-y-auto", "auto")] ++
  single "font-style" [("italic", "italic"), ("not-italic", "normal")] ++
  single "text-decoration-line" [("underline", "underline"), ("line-through", "line-through"),
    ("no-underline", "none")] ++
  single "text-transform" [("uppercase", "uppercase"), ("lowercase", "lowercase"),
    ("capitalize", "capitalize"), ("normal-case", "none")] ++
  single "text-align" [("text-left", "left"), ("text-center", "center"),
    ("text-right", "right"), ("text-justify", "justify")] ++
  single "white-space" [("whitespace-normal", "normal"), ("whitespace-nowrap", "nowrap"),
    ("whitespace-pre", "pre")] ++
  single "overflow-wrap" [("break-words", "break-word")] ++
  single "word-break" [("break-all", "break-all")] ++
  single "list-style-type" [("list-none", "none"), ("list-disc", "disc")] ++
  single "border-style" [("border-solid", "solid"), ("border-dashed", "dashed"),
    ("border-dotted", "dotted"), ("border-none", "none")] ++
  single "cursor" [("cursor-pointer", "pointer"), ("cursor-default", "default"),
    ("cursor-not-allowed", "not-allowed")] ++
  single "user-select" [("select-none", "none"), ("select-all", "all")] ++
  single "pointer-events" [("pointer-events-none", "none"), ("pointer-events-auto", "auto")] ++
  single "object-fit" [("object-cover", "cover"), ("object-contain", "contain")] ++
  single "transition-property" [("transition-none", "none")]

/-- Names that set several properties. -/
def compounds : List (String × List Declaration) :=
  [("truncate",
     [⟨"overflow", "hidden"⟩, ⟨"text-overflow", "ellipsis"⟩, ⟨"white-space", "nowrap"⟩]),
   ("antialiased",
     [⟨"-webkit-font-smoothing", "antialiased"⟩, ⟨"-moz-osx-font-smoothing", "grayscale"⟩]),
   ("transition",
     [⟨"transition-property",
        "color, background-color, border-color, text-decoration-color, fill, stroke, " ++
        "opacity, box-shadow, transform"⟩,
      ⟨"transition-timing-function", "cubic-bezier(0.4, 0, 0.2, 1)"⟩,
      ⟨"transition-duration", "150ms"⟩]),
   ("sr-only",
     [⟨"position", "absolute"⟩, ⟨"width", "1px"⟩, ⟨"height", "1px"⟩, ⟨"padding", "0"⟩,
      ⟨"margin", "-1px"⟩, ⟨"overflow", "hidden"⟩, ⟨"clip", "rect(0, 0, 0, 0)"⟩,
      ⟨"white-space", "nowrap"⟩, ⟨"border-width", "0"⟩])]

/-- The static rules. -/
def statics : List (String × List Declaration) := singles ++ compounds

/-- A target without inline values, transform or extra declarations. -/
def target (axes properties : List String) (accepts : ValueKind) : Target :=
  ⟨axes, SortedMap.empty, properties, accepts, .none, []⟩

/-- A utility with one target. -/
def one (stem : String) (t : Target) : Utility := ⟨stem, [t], false⟩

/-- A utility that takes distances. -/
def distance (stem : String) (properties : List String) : Utility :=
  one stem (target ["spacing"] properties .length)

/-- A utility that takes offsets: distances or fractions, negated or not. -/
def offset (stem : String) (properties : List String) : Utility :=
  ⟨stem, [{ target ["inset", "spacing"] properties .length with transform := .fraction }],
    true⟩

/-- A utility that takes margins: distances or `auto`, negated or not. -/
def margin (stem : String) (properties : List String) : Utility :=
  ⟨stem, [{ target ["spacing"] properties .length with
      values := SortedMap.ofList [("auto", "auto")] }], true⟩

/-- The target of a border's width. -/
def width (properties : List String) : Target := target ["borderWidth"] properties .length

/-- A utility that takes radii. -/
def radius (stem : String) (properties : List String) : Utility :=
  one stem (target ["borderRadius"] properties .length)

/-- The target of a colour. -/
def color (property : String) : Target := target ["colors"] [property] .color

/-- Placement: offsets, stacking and the grid. -/
def placement : List Utility :=
  [offset "inset" ["inset"], offset "inset-x" ["left", "right"],
   offset "inset-y" ["top", "bottom"], offset "top" ["top"], offset "right" ["right"],
   offset "bottom" ["bottom"], offset "left" ["left"],
   ⟨"z", [target ["zIndex"] ["z-index"] .number], true⟩,
   one "grid-cols"
     { target ["gridTemplateColumns"] ["grid-template-columns"] .any with
       transform := .gridRepeat },
   one "col-span" { target ["gridColumn"] ["grid-column"] .any with transform := .span }]

/-- Margins, sizes and gaps. -/
def sizes : List Utility :=
  [margin "m" ["margin"], margin "mx" ["margin-left", "margin-right"],
   margin "my" ["margin-top", "margin-bottom"], margin "mt" ["margin-top"],
   margin "mr" ["margin-right"], margin "mb" ["margin-bottom"], margin "ml" ["margin-left"],
   one "w" { target ["width", "spacing"] ["width"] .length with transform := .fraction },
   one "min-w" (target ["minWidth"] ["min-width"] .length),
   one "max-w" (target ["maxWidth"] ["max-width"] .length),
   one "h" { target ["height", "spacing"] ["height"] .length with transform := .fraction },
   one "min-h" (target ["minHeight"] ["min-height"] .length),
   one "basis"
     { target ["spacing"] ["flex-basis"] .length with
       values := SortedMap.ofList [("auto", "auto"), ("full", "100%")]
       transform := .fraction },
   distance "gap" ["gap"], distance "gap-x" ["column-gap"], distance "gap-y" ["row-gap"]]

/-- Corners and borders. -/
def borders : List Utility :=
  [radius "rounded" ["border-radius"],
   radius "rounded-t" ["border-top-left-radius", "border-top-right-radius"],
   radius "rounded-r" ["border-top-right-radius", "border-bottom-right-radius"],
   radius "rounded-b" ["border-bottom-right-radius", "border-bottom-left-radius"],
   radius "rounded-l" ["border-top-left-radius", "border-bottom-left-radius"],
   ⟨"border", [width ["border-width"], color "border-color"], false⟩,
   one "border-x" (width ["border-left-width", "border-right-width"]),
   one "border-y" (width ["border-top-width", "border-bottom-width"]),
   one "border-t" (width ["border-top-width"]), one "border-r" (width ["border-right-width"]),
   one "border-b" (width ["border-bottom-width"]), one "border-l" (width ["border-left-width"])]

/-- Colours and paddings. -/
def fills : List Utility :=
  [one "bg" (color "background-color"), one "fill" (color "fill"),
   one "stroke" (color "stroke"), distance "p" ["padding"],
   distance "px" ["padding-left", "padding-right"],
   distance "py" ["padding-top", "padding-bottom"], distance "pt" ["padding-top"],
   distance "pr" ["padding-right"], distance "pb" ["padding-bottom"],
   distance "pl" ["padding-left"]]

/-- Text and effects. -/
def texts : List Utility :=
  [⟨"font",
     [target ["fontFamily"] ["font-family"] .any,
      target ["fontWeight"] ["font-weight"] .number], false⟩,
   ⟨"text", [target ["fontSize"] ["font-size"] .length, color "color"], false⟩,
   one "leading" (target ["lineHeight"] ["line-height"] .any),
   ⟨"tracking", [target ["letterSpacing"] ["letter-spacing"] .length], true⟩,
   one "opacity" (target ["opacity"] ["opacity"] .number),
   one "shadow" (target ["boxShadow"] ["box-shadow"] .any),
   one "duration" (target ["transitionDuration"] ["transition-duration"] .length)]

/-- The utilities, in cascade order. -/
def utilities : List Utility := placement ++ sizes ++ borders ++ fills ++ texts

end DefaultGrammar

/-- The grammar that a build starts from. -/
def Grammar.default : Grammar :=
  DefaultGrammar.utilities.foldl Grammar.place
    (Grammar.ofBase (SortedMap.ofList DefaultGrammar.statics))

end UtilityCss
