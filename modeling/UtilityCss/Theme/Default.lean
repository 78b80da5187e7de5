import UtilityCss.Theme

/-!
# The Default Theme

The design values that a build starts from.

Widths, heights and offsets are looked up in their own axis first and among
the distances afterwards, so their axes hold only the keys that `spacing` does
not have.

## Main definitions

* `DefaultTheme.axes`: The axes with their entries.
* `Theme.default`: The theme of those axes.
-/

namespace UtilityCss

namespace DefaultTheme

/-- Distances. -/
def spacing : List (String × String) :=
  [("0", "0px"), ("px", "1px"), ("0.5", "0.125rem"), ("1", "0.25rem"), ("1.5", "0.375rem"),
   ("2", "0.5rem"), ("2.5", "0.625rem"), ("3", "0.75rem"), ("3.5", "0.875rem"),
   ("4", "1rem"), ("5", "1.25rem"), ("6", "1.5rem"), ("7", "1.75rem"), ("8", "2rem"),
   ("9", "2.25rem"), ("10", "2.5rem"), ("11", "2.75rem"), ("12", "3rem"), ("14", "3.5rem"),
   ("16", "4rem"), ("20", "5rem"), ("24", "6rem"), ("28", "7rem"), ("32", "8rem"),
   ("36", "9rem"), ("40", "10rem"), ("44", "11rem"), ("48", "12rem"), ("52", "13rem"),
   ("56", "14rem"), ("60", "15rem"), ("64", "16rem"), ("72", "18rem"), ("80", "20rem"),
   ("96", "24rem")]

/-- Colours. -/
def colors : List (String × String) :=
  [("inherit", "inherit"), ("current", "currentColor"), ("transparent", "transparent"),
   ("black", "#000"), ("white", "#fff"), ("gray-50", "#f9fafb"), ("gray-100", "#f3f4f6"),
   ("gray-200", "#e5e7eb"), ("gray-300", "#d1d5db"), ("gray-400", "#9ca3af"),
   ("gray-500", "#6b7280"), ("gray-600", "#4b5563"), ("gray-700", "#374151"),
   ("gray-800", "#1f2937"), ("gray-900", "#111827"), ("red-50", "#fef2f2"),
   ("red-100", "#fee2e2"), ("red-200", "#fecaca"), ("red-300", "#fca5a5"),
   ("red-400", "#f87171"), ("red-500", "#ef4444"), ("red-600", "#dc2626"),
   ("red-700", "#b91c1c"), ("red-800", "#991b1b"), ("red-900", "#7f1d1d"),
   ("yellow-50", "#fefce8"), ("yellow-100", "#fef9c3"), ("yellow-200", "#fef08a"),
   ("yellow-300", "#fde047"), ("yellow-400", "#facc15"), ("yellow-500", "#eab308"),
   ("yellow-600", "#ca8a04"), ("yellow-700", "#a16207"), ("yellow-800", "#854d0e"),
   ("yellow-900", "#713f12"), ("green-50", "#f0fdf4"), ("green-100", "#dcfce7"),
   ("green-200", "#bbf7d0"), ("green-300", "#86efac"), ("green-400", "#4ade80"),
   ("green-500", "#22c55e"), ("green-600", "#16a34a"), ("green-700", "#15803d"),
   ("green-800", "#166534"), ("green-900", "#14532d"), ("blue-50", "#eff6ff"),
   ("blue-100", "#dbeafe"), ("blue-200", "#bfdbfe"), ("blue-300", "#93c5fd"),
   ("blue-400", "#60a5fa"), ("blue-500", "#3b82f6"), ("blue-600", "#2563eb"),
   ("blue-700", "#1d4ed8"), ("blue-800", "#1e40af"), ("blue-900", "#1e3a8a"),
   ("indigo-50", "#eef2ff"), ("indigo-100", "#e0e7ff"), ("indigo-200", "#c7d2fe"),
   ("indigo-300", "#a5b4fc"), ("indigo-400", "#818cf8"), ("indigo-500", "#6366f1"),
   ("indigo-600", "#4f46e5"), ("indigo-700", "#4338ca"), ("indigo-800", "#3730a3"),
   ("indigo-900", "#312e81"), ("purple-50", "#faf5ff"), ("purple-100", "#f3e8ff"),
   ("purple-200", "#e9d5ff"), ("purple-300", "#d8b4fe"), ("purple-400", "#c084fc"),
   ("purple-500", "#a855f7"), ("purple-600", "#9333ea"), ("purple-700", "#7e22ce"),
   ("purple-800", "#6b21a8"), ("purple-900", "#581c87"), ("pink-50", "#fdf2f8"),
   ("pink-100", "#fce7f3"), ("pink-200", "#fbcfe8"), ("pink-300", "#f9a8d4"),
   ("pink-400", "#f472b6"), ("pink-500", "#ec4899"), ("pink-600", "#db2777"),
   ("pink-700", "#be185d"), ("pink-800", "#9d174d"), ("pink-900", "#831843")]

/-- Font sizes. -/
def fontSize : List (String × String) :=
  [("xs", "0.75rem"), ("sm", "0.875rem"), ("base", "1rem"), ("lg", "1.125rem"),
   ("xl", "1.25rem"), ("2xl", "1.5rem"), ("3xl", "1.875rem"), ("4xl", "2.25rem"),
   ("5xl", "3rem"), ("6xl", "3.75rem"), ("7xl", "4.5rem"), ("8xl", "6rem"),
   ("9xl", "8rem")]

/-- Font weights. -/
def fontWeight : List (String × String) :=
  [("thin", "100"), ("extralight", "200"), ("light", "300"), ("normal", "400"),
   ("medium", "500"), ("semibold", "600"), ("bold", "700"), ("extrabold", "800"),
   ("black", "900")]

/-- Font lists. -/
def fontFamily : List (String × String) :=
  [("sans", "ui-sans-serif, system-ui, sans-serif, \"Apple Color Emoji\", \"Segoe UI Emoji\""),
   ("serif", "ui-serif, Georgia, Cambria, \"Times New Roman\", Times, serif"),
   ("mono", "ui-monospace, SFMono-Regular, Menlo, Monaco, Consolas, monospace")]

/-- Line heights. -/
def lineHeight : List (String × String) :=
  [("none", "1"), ("tight", "1.25"), ("snug", "1.375"), ("normal", "1.5"),
   ("relaxed", "1.625"), ("loose", "2"), ("3", ".75rem"), ("4", "1rem"), ("5", "1.25rem"),
   ("6", "1.5rem"), ("7", "1.75rem"), ("8", "2rem"), ("9", "2.25rem"), ("10", "2.5rem")]

/-- Letter spacings. -/
def letterSpacing : List (String × String) :=
  [("tighter", "-0.05em"), ("tight", "-0.025em"), ("normal", "0em"), ("wide", "0.025em"),
   ("wider", "0.05em"), ("widest", "0.1em")]

/-- Radii of corners. -/
def borderRadius : List (String × String) :=
  [("none", "0px"), ("sm", "0.125rem"), ("DEFAULT", "0.25rem"), ("md", "0.375rem"),
   ("lg", "0.5rem"), ("xl", "0.75rem"), ("2xl", "1rem"), ("3xl", "1.5rem"),
   ("full", "9999px")]

/-- Widths of borders. -/
def borderWidth : List (String × String) :=
  [("DEFAULT", "1px"), ("0", "0px"), ("2", "2px"), ("4", "4px"), ("8", "8px")]

/-- Opacities. -/
def opacity : List (String × String) :=
  [("0", "0"), ("5", "0.05"), ("10", "0.1"), ("20", "0.2"), ("25", "0.25"), ("30", "0.3"),
   ("40", "0.4"), ("50", "0.5"), ("60", "0.6"), ("70", "0.7"), ("75", "0.75"),
   ("80", "0.8"), ("90", "0.9"), ("95", "0.95"), ("100", "1")]

/-- Stacking positions. -/
def zIndex : List (String × String) :=
  [("auto", "auto"), ("0", "0"), ("10", "10"), ("20", "20"), ("30", "30"), ("40", "40"),
   ("50", "50")]

/-- Breakpoints. -/
def screens : List (String × String) :=
  [("sm", "640px"), ("md", "768px"), ("lg", "1024px"), ("xl", "1280px"), ("2xl", "1536px")]

/-- Shadows. -/
def boxShadow : List (String × String) :=
  [("sm", "0 1px 2px 0 rgb(0 0 0 / 0.05)"),
   ("DEFAULT", "0 1px 3px 0 rgb(0 0 0 / 0.1), 0 1px 2px -1px rgb(0 0 0 / 0.1)"),
   ("md", "0 4px 6px -1px rgb(0 0 0 / 0.1), 0 2px 4px -2px rgb(0 0 0 / 0.1)"),
   ("lg", "0 10px 15px -3px rgb(0 0 0 / 0.1), 0 4px 6px -4px rgb(0 0 0 / 0.1)"),
   ("none", "none")]

/-- Durations. -/
def transitionDuration : List (String × String) :=
  [("DEFAULT", "150ms"), ("75", "75ms"), ("100", "100ms"), ("150", "150ms"),
   ("200", "200ms"), ("300", "300ms"), ("500", "500ms"), ("700", "700ms"),
   ("1000", "1000ms")]

/-- Widths beside the distances. -/
def width : List (String × String) :=
  [("auto", "auto"), ("full", "100%"), ("screen", "100vw"), ("min", "min-content"),
   ("max", "max-content"), ("fit", "fit-content")]

/-- Heights beside the distances. -/
def height : List (String × String) :=
  [("auto", "auto"), ("full", "100%"), ("screen", "100vh"), ("min", "min-content"),
   ("max", "max-content"), ("fit", "fit-content")]

/-- Least widths. -/
def minWidth : List (String × String) :=
  [("0", "0px"), ("full", "100%"), ("min", "min-content"), ("max", "max-content")]

/-- Least heights. -/
def minHeight : List (String × String) :=
  [("0", "0px"), ("full", "100%"), ("screen", "100vh")]

/-- Greatest widths. -/
def maxWidth : List (String × String) :=
  [("none", "none"), ("xs", "20rem"), ("sm", "24rem"), ("md", "28rem"), ("lg", "32rem"),
   ("xl", "36rem"), ("2xl", "42rem"), ("3xl", "48rem"), ("4xl", "56rem"), ("5xl", "64rem"),
   ("6xl", "72rem"), ("7xl", "80rem"), ("full", "100%"), ("prose", "65ch")]

/-- Offsets beside the distances. -/
def inset : List (String × String) :=
  [("auto", "auto"), ("full", "100%")]

/-- The axes with their entries. -/
def axes : List (String × List (String × String)) :=
  [("spacing", spacing), ("colors", colors), ("fontSize", fontSize), ("fontWeight",
   fontWeight), ("fontFamily", fontFamily), ("lineHeight", lineHeight),
   ("letterSpacing", letterSpacing), ("borderRadius", borderRadius), ("borderWidth",
   borderWidth), ("opacity", opacity), ("zIndex", zIndex), ("screens", screens),
   ("boxShadow", boxShadow), ("transitionDuration", transitionDuration), ("width",
   width), ("height", height), ("minWidth", minWidth), ("minHeight", minHeight),
   ("maxWidth", maxWidth), ("inset", inset)]

end DefaultTheme

namespace Theme

/-- The design values that a build starts from. -/
def default : Theme :=
  DefaultTheme.axes.foldl (fun t (axis, entries) => t.setAxis axis (SortedMap.ofList entries))
    empty

end Theme

end UtilityCss
