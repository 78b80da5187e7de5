import UtilityCss.FileTree.Path
import UtilityCss.Glob.Parser

/-!
# How Far a Pattern Reaches

Which part of the files a content pattern can match at all.

A pattern is looked for below the directories that it names without wildcards,
and no deeper than it has parts. Where two stars or branches with slashes make
the depth unknown, there is no bound.

A pattern also tells which directories may hold matches: those that match it
part by part. This decides whether an error in a directory matters, so it errs
on the side of saying yes.

## Main definitions

* `Reach.base`: The directory below which a pattern is looked for.
* `Reach.levels`: How many levels below it matches can be.
* `Reach.mayHold`: A directory may hold matches.
-/

namespace UtilityCss

namespace Reach

/-- The text has a wildcard or opens a class or branches. -/
def hasWildcard (text : String) : Bool :=
  text.toList.any fun c => c = '*' || c = '?' || c = '[' || c = '{'

/-- The text has two stars in a row. -/
def hasTwoStars (text : String) : Bool := Text.hasWord ['*', '*'] text.toList

/-- A slash stands inside braces, given how many are open. -/
def hasInnerSlash : Nat → List Char → Bool
  | _, [] => false
  | depth, c :: cs =>
    if c = '{' then hasInnerSlash (depth + 1) cs
    else if c = '}' then hasInnerSlash (depth - 1) cs
    else (c = '/' && depth ≠ 0) || hasInnerSlash depth cs

/-- The parts of a pattern before the first one with a wildcard, the last part
    left out. -/
def literalParts : List String → List String
  | [] => []
  | [_] => []
  | part :: rest => if hasWildcard part then [] else part :: literalParts rest

/-- The path below which a pattern is looked for. A pattern without wildcards
    is a path itself. -/
def base (pattern : String) : String :=
  if hasWildcard pattern then (literalParts (Path.pieces pattern)).foldl Path.join ""
  else pattern

/-- How many levels below its base a pattern can match, if there is a bound. -/
def levels (pattern : String) : Option Nat :=
  if hasTwoStars pattern || hasInnerSlash 0 pattern.toList then none
  else some ((Path.pieces pattern).length - (Path.components (base pattern)).length)

/-- A part of a path can match a part of a pattern. A part of a pattern that is
    no glob by itself matches anything. -/
def partMatches (pattern part : String) : Bool :=
  match Glob.parse? pattern with
  | some g => g.accepts false part
  | none => true

/-- The parts of a directory match the parts of a pattern, and parts of the
    pattern are left. From two stars on anything may match. -/
def partsMayHold : List String → List String → Bool
  | patterns, [] => !patterns.isEmpty
  | [], _ :: _ => false
  | pattern :: patterns, part :: parts =>
    hasTwoStars pattern || (partMatches pattern part && partsMayHold patterns parts)

/-- A directory may hold matches of a pattern. -/
def mayHold (pattern directory : String) : Bool :=
  hasInnerSlash 0 pattern.toList
    || partsMayHold (Path.pieces pattern) ((Path.pieces directory).filter (· ≠ ""))

end Reach

end UtilityCss
