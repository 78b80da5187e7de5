import UtilityCss.Plugin

/-!
# Bundled Plugins

The plugins that come along with the program and are used by their names.

`aspect-ratio` gives boxes a ratio of width to height, and `line-clamp` cuts
text after some lines.

## Main definitions

* `Plugin.bundledNames`: Their names.
* `Plugin.bundled?`: The plugin of a name.
-/

namespace UtilityCss

namespace Plugin

/-- Ratios of width to height: `aspect-video`, `aspect-[4/3]`. -/
def aspectRatio : Plugin :=
  ⟨"aspect-ratio", .utilities [⟨"aspect",
    [{ axes := ["aspectRatio"]
       values := SortedMap.ofList
         [("auto", "auto"), ("square", "1 / 1"), ("video", "16 / 9")]
       properties := ["aspect-ratio"]
       accepts := .any
       transform := .none
       extra := [] }], false⟩]⟩

/-- Text cut after some lines: `line-clamp-3`. -/
def lineClamp : Plugin :=
  ⟨"line-clamp", .utilities [⟨"line-clamp",
    [{ axes := ["lineClamp"]
       values := SortedMap.ofList
         [("1", "1"), ("2", "2"), ("3", "3"), ("4", "4"), ("5", "5"), ("6", "6"),
          ("none", "none")]
       properties := ["-webkit-line-clamp"]
       accepts := .number
       transform := .none
       extra := [⟨"overflow", "hidden"⟩, ⟨"display", "-webkit-box"⟩,
         ⟨"-webkit-box-orient", "vertical"⟩] }], false⟩]⟩

/-- The plugins that come along with the program. -/
def allBundled : List Plugin := [aspectRatio, lineClamp]

/-- The names of the plugins that come along with the program. -/
def bundledNames : List String := allBundled.map Plugin.name

/-- The plugin of a name that comes along with the program. -/
def bundled? (name : String) : Option Plugin :=
  allBundled.find? fun p => p.name = name

end Plugin

end UtilityCss
