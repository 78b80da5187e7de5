import UtilityCss.Stylesheet

/-!
# Writing Stylesheets

The text of a stylesheet, spread out or compact.

Spread out, a stylesheet is a list of lines: every rule and declaration stands
on a line of its own, indented by the blocks around it, and an empty line stands
between blocks and between the rules of one block. Compact, there is no white
space but that of selectors, at-rules and values, and no semicolon before a
closing brace.

## Main definitions

* `Stylesheet.lines`: The lines of a stylesheet that is spread out.
* `Stylesheet.compact`: The compact text.
* `Stylesheet.toText`: Either text.
-/

namespace UtilityCss

/-- The space in front of a line inside so many blocks. -/
def indent (depth : Nat) : String := String.ofList (List.replicate (2 * depth) ' ')

/-- The line that opens a block. -/
def openLine (depth : Nat) (head : String) : String := indent depth ++ head ++ " \x7b"

/-- The line that closes a block. -/
def closeLine (depth : Nat) : String := indent depth ++ "\x7d"

/-- The lines of a rule inside so many blocks. -/
def Rule.lines (depth : Nat) (r : Rule) : List String :=
  openLine depth r.selector ::
    r.declarations.map (fun d => indent (depth + 1) ++ d.property ++ ": " ++ d.value ++ ";")
    ++ [closeLine depth]

/-- The compact text of a rule. -/
def Rule.compact (r : Rule) : String :=
  r.selector ++ "\x7b"
    ++ ";".intercalate (r.declarations.map fun d => d.property ++ ":" ++ d.value)
    ++ "\x7d"

/-- Lines inside the at-rules of a block, the outermost of which stands inside
    so many blocks. -/
def wrapLines (depth : Nat) : List String → List String → List String
  | [], inner => inner
  | atRule :: rest, inner =>
    openLine depth atRule :: wrapLines (depth + 1) rest inner ++ [closeLine depth]

/-- The lines of a block. -/
def Block.lines (b : Block) : List String :=
  wrapLines 0 b.atRules ([""].intercalate (b.rules.map (Rule.lines b.atRules.length)))

/-- The compact text of a block. -/
def Block.compact (b : Block) : String :=
  String.join (b.atRules.map (· ++ "\x7b")) ++ String.join (b.rules.map Rule.compact)
    ++ String.join (b.atRules.map fun _ => "\x7d")

namespace Stylesheet

/-- The lines of a stylesheet. -/
def lines (s : Stylesheet) : List String :=
  [""].intercalate (s.blocks.map Block.lines)

/-- The compact text of a stylesheet. -/
def compact (s : Stylesheet) : String := String.join (s.blocks.map Block.compact)

/-- The text of a stylesheet. -/
def toText (minify : Bool) (s : Stylesheet) : String :=
  if minify then s.compact else String.join (s.lines.map (· ++ "\n"))

end Stylesheet

end UtilityCss
