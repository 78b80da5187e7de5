/-!
# Positions in a Document

The unread part of a document together with the place it starts at.

Indentation and the rules for keys depend on columns and lines, so reading
moves a cursor instead of a bare list. A line ends at a line feed, a carriage
return, both together, or one of three Unicode line ends; as text, all of them
but the last two count as a line feed.

## Main definitions

* `Yaml.Cursor`: What is unread, and where it starts.
* `Yaml.isBreak`, `Yaml.isGap`: Ends of lines, spaces and tabs.
* `Yaml.Cursor.next`, `Yaml.Cursor.nextLine`: Moving on.
* `Yaml.Cursor.atMarker`: A document marker starts here.
-/

namespace UtilityCss

namespace Yaml

/-- The character ends a line. -/
def isBreak (c : Char) : Bool :=
  c = '\n' || c = '\r' || c = '\u0085' || c = '\u2028' || c = '\u2029'

/-- The character is a space or a tab. -/
def isGap (c : Char) : Bool := c = ' ' || c = '\t'

/-- The text starts with a space, a tab or the end of a line, or is empty. -/
def startsBlank : List Char → Bool
  | [] => true
  | c :: _ => isGap c || isBreak c

/-- The character may occur in a document. -/
def isPrintable (c : Char) : Bool :=
  let n := c.toNat
  n = 0x9 || n = 0xA || n = 0xD || (0x20 ≤ n && n ≤ 0x7E) || n = 0x85
    || (0xA0 ≤ n && n ≤ 0xFFFD && n ≠ 0xFEFF) || 0x10000 ≤ n

/-- The unread part of a document, and where it starts. -/
structure Cursor where
  /-- What is unread. -/
  rest : List Char
  /-- How many characters have been read. -/
  index : Nat
  /-- How many lines have been read. -/
  line : Nat
  /-- How many characters of this line have been read. -/
  column : Nat

namespace Cursor

/-- The start of a document. -/
def start (cs : List Char) : Cursor := ⟨cs, 0, 0, 0⟩

/-- The cursor after some characters of the same line. -/
def next (cur : Cursor) (count : Nat) : Cursor :=
  ⟨cur.rest.drop count, cur.index + count, cur.line, cur.column + count⟩

/-- The cursor after the end of the line that it stands at, and how that end
    counts as text. -/
def nextLine (cur : Cursor) : Cursor × List Char :=
  match cur.rest with
  | '\r' :: '\n' :: rest => (⟨rest, cur.index + 2, cur.line + 1, 0⟩, ['\n'])
  | c :: rest =>
    let text := if c = '\u2028' ∨ c = '\u2029' then [c] else ['\n']
    (⟨rest, cur.index + 1, cur.line + 1, 0⟩, text)
  | [] => (cur, [])

/-- The characters up to the first one outside a class, and the cursor there.
    The class must not hold ends of lines. -/
def span (p : Char → Bool) (cur : Cursor) : List Char × Cursor :=
  let taken := cur.rest.takeWhile p
  (taken, cur.next taken.length)

/-- A document marker stands here: three hyphens or three dots at the start of a
    line, followed by a blank. -/
def atMarker (cur : Cursor) : Bool :=
  cur.column = 0 && match cur.rest with
    | '-' :: '-' :: '-' :: rest => startsBlank rest
    | '.' :: '.' :: '.' :: rest => startsBlank rest
    | _ => false

end Cursor

end Yaml

end UtilityCss
