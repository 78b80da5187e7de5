import UtilityCss.Yaml.Cursor

/-!
# Reading Scalars

The three ways to write a scalar: plain, quoted and as a block.

Plain and quoted scalars may run over several lines. Between two words there
is a *gap*: spaces on one line are kept as they are, one line end becomes a
space, and further line ends are kept. A quoted scalar keeps the gaps at its
ends, a plain one ends before its last gap.

A block scalar keeps its lines. Its indentation is that of its first line that
is not empty, unless the header gives it; the header also says what happens to
the line ends after the last line.

## Main definitions

* `Yaml.Gap`: What stands between two words of a scalar.
* `Yaml.readPlain?`: A scalar without quotes.
* `Yaml.readQuoted?`: A scalar in single or double quotes.
* `Yaml.readBlock?`: A literal or folded block.
-/

namespace UtilityCss

namespace Yaml

/-- What stands between two words of a scalar. -/
structure Gap where
  /-- The spaces and tabs before the first line end. -/
  spaces : List Char
  /-- A line end has been passed, or escaped. -/
  crossed : Bool
  /-- The first line end that was not escaped, as text. -/
  first : List Char
  /-- The line ends after it, as text. -/
  later : List Char

namespace Gap

/-- The gap before any of it is read. -/
def start : Gap := ⟨[], false, [], []⟩

/-- The gap after an escaped line end. -/
def escaped : Gap := ⟨[], true, [], []⟩

/-- One space or tab more. After a line end they are indentation. -/
def addSpace (g : Gap) (c : Char) : Gap :=
  if g.crossed then g else { g with spaces := g.spaces ++ [c] }

/-- One line end more. -/
def addLine (g : Gap) (text : List Char) : Gap :=
  if g.crossed then { g with later := g.later ++ text }
  else ⟨[], true, text, []⟩

/-- The text of the gap. -/
def text (g : Gap) : List Char :=
  if !g.crossed then g.spaces
  else if g.first = ['\n'] then if g.later.isEmpty then [' '] else g.later
  else g.first ++ g.later

end Gap

/-- A scalar that has been read. -/
structure ScalarRead where
  /-- Its text. -/
  text : List Char
  /-- The cursor after it. -/
  after : Cursor
  /-- A line end stands between the last word and the cursor. -/
  crossed : Bool

/-- The character separates items inside brackets and braces. -/
def isFlowIndicator (c : Char) : Bool := [',', '[', ']', '{', '}'].contains c

/-- A plain scalar from inside one of its gaps or words on. `flow` tells that it
    stands inside brackets, `indent` the least column of its lines; `back` is
    what has been read, last character first, and `gap?` the gap that is open,
    if one is. -/
def plainFrom? (flow : Bool) (indent : Int) :
    Nat → Cursor → List Char → Option Gap → Option ScalarRead
  | 0, _, _, _ => none
  | fuel + 1, cur, back, gap? =>
    let stop := some ⟨back.reverse, cur, (gap?.map Gap.crossed).getD false⟩
    match cur.rest with
    | [] => stop
    | c :: rest =>
      if isGap c then
        let gap := gap?.getD Gap.start
        -- A tab may not stand for indentation.
        if gap.crossed && (cur.column : Int) < indent && c = '\t' then none
        else plainFrom? flow indent fuel (cur.next 1) back (some (gap.addSpace c))
      else if isBreak c then
        let (after, line) := cur.nextLine
        plainFrom? flow indent fuel after back
          (some ((gap?.getD Gap.start).addLine line))
      else if gap?.isSome && !flow && (cur.column : Int) < indent then stop
      else if gap?.isSome && (cur.atMarker || c = '#') then stop
      else if flow && c = ':' && (match rest with
          | d :: _ => isFlowIndicator d || d = '?'
          | [] => false) then none
      else if (c = ':' && startsBlank rest) || (flow && isFlowIndicator c) then stop
      else
        plainFrom? flow indent fuel (cur.next 1)
          (c :: ((gap?.map Gap.text).getD []).reverse ++ back) none

/-- A plain scalar. -/
def readPlain? (flow : Bool) (indent : Int) (cur : Cursor) : Option ScalarRead :=
  plainFrom? flow indent (cur.rest.length + 1) cur [] none

/-- The characters that a backslash and a letter stand for. -/
def simpleEscapes : List (Char × Char) :=
  [('0', '\x00'), ('a', '\x07'), ('b', '\x08'), ('t', '\t'), ('\t', '\t'), ('n', '\n'),
   ('v', '\x0b'), ('f', '\x0c'), ('r', '\r'), ('e', '\x1b'), (' ', ' '), ('"', '"'),
   ('/', '/'), ('\\', '\\'), ('N', '\u0085'), ('_', '\u00a0'), ('L', '\u2028'),
   ('P', '\u2029')]

/-- The value of hexadecimal digits. -/
def hexValue? (cs : List Char) : Option Nat :=
  cs.foldlM (fun n c =>
    if c.isDigit then some (n * 16 + (c.toNat - '0'.toNat))
    else if 'a' ≤ c && c ≤ 'f' then some (n * 16 + (c.toNat - 'a'.toNat + 10))
    else if 'A' ≤ c && c ≤ 'F' then some (n * 16 + (c.toNat - 'A'.toNat + 10))
    else none) 0

/-- The character that the text after a backslash stands for, and the length of
    that text. -/
def readEscape? : List Char → Option (Char × Nat)
  | [] => none
  | c :: rest =>
    match simpleEscapes.lookup c with
    | some d => some (d, 1)
    | none =>
      let width := if c = 'x' then 2 else if c = 'u' then 4 else if c = 'U' then 8 else 0
      if width = 0 || rest.length < width then none
      else match hexValue? (rest.take width) with
        | some n =>
          if (0xD800 ≤ n && n ≤ 0xDFFF) || 0x10FFFF < n then none
          else some (Char.ofNat n, width + 1)
        | none => none

/-- A quoted scalar from inside one of its gaps or words on; the opening quote
    has been read, and `back` is what has been read after it, last character
    first. -/
def quotedFrom? (quote : Char) :
    Nat → Cursor → List Char → Option Gap → Option ScalarRead
  | 0, _, _, _ => none
  | fuel + 1, cur, back, gap? =>
    match cur.rest with
    | [] => none
    | c :: rest =>
      if isGap c then
        quotedFrom? quote fuel (cur.next 1) back (some ((gap?.getD Gap.start).addSpace c))
      else if isBreak c then
        let (after, line) := cur.nextLine
        quotedFrom? quote fuel after back (some ((gap?.getD Gap.start).addLine line))
      else if gap?.isSome && cur.atMarker then none
      else
        let back := ((gap?.map Gap.text).getD []).reverse ++ back
        if c = quote then
          if quote = '\'' && rest.head? = some '\'' then
            quotedFrom? quote fuel (cur.next 2) ('\'' :: back) none
          else some ⟨back.reverse, cur.next 1, false⟩
        else if quote = '"' && c = '\\' then
          if (rest.head?.map isBreak).getD false then
            quotedFrom? quote fuel (cur.next 1).nextLine.1 back (some Gap.escaped)
          else match readEscape? rest with
            | some (d, width) =>
              quotedFrom? quote fuel (cur.next (width + 1)) (d :: back) none
            | none => none
        else quotedFrom? quote fuel (cur.next 1) (c :: back) none

/-- A quoted scalar, from its opening quote on. -/
def readQuoted? (quote : Char) (cur : Cursor) : Option ScalarRead :=
  quotedFrom? quote (cur.rest.length + 1) (cur.next 1) [] none

/-- What happens to the line ends after the last line of a block. -/
inductive Chomp where
  /-- One is kept. -/
  | clip
  /-- None is kept. -/
  | strip
  /-- All are kept. -/
  | keep
deriving DecidableEq

/-- The mark for the line ends at the start of a text. -/
def chompMark? : List Char → Option Chomp
  | '+' :: _ => some .keep
  | '-' :: _ => some .strip
  | _ => none

/-- The digit for the indentation at the start of a text. -/
def indentMark? : List Char → Option Nat
  | c :: _ => if c.isDigit then some (c.toNat - '0'.toNat) else none
  | [] => none

/-- The header of a block after its indicator: the two marks in either order,
    then nothing but a comment. Gives the cursor on the next line. -/
def blockHeader? (cur : Cursor) : Option (Chomp × Option Nat × Cursor) :=
  let (chomp, width, cur) :=
    match chompMark? cur.rest with
    | some chomp =>
      let cur := cur.next 1
      match indentMark? cur.rest with
      | some n => (chomp, some n, cur.next 1)
      | none => (chomp, none, cur)
    | none =>
      match indentMark? cur.rest with
      | some n =>
        let cur := cur.next 1
        match chompMark? cur.rest with
        | some chomp => (chomp, some n, cur.next 1)
        | none => (.clip, some n, cur)
      | none => (.clip, none, cur)
  if width = some 0 then none
  else
    let cur := (cur.span isGap).2
    let cur := match cur.rest with
      | '#' :: _ => (cur.span fun c => !isBreak c).2
      | _ => cur
    match cur.rest with
    | [] => some (chomp, width, cur)
    | c :: _ => if isBreak c then some (chomp, width, cur.nextLine.1) else none

/-- The line ends before the next line of a block that is not empty, and the
    cursor after its indentation. Where the indentation is not known yet
    (`none`), it is the widest one seen. -/
def blockGap? (known : Option Nat) :
    Nat → Nat → List Char → Cursor → Option (List Char × Nat × Cursor)
  | 0, _, _, _ => none
  | fuel + 1, widest, lines, cur =>
    match cur.rest with
    | c :: _ =>
      let inside := match known with
        | some n => cur.column < n
        | none => true
      if c = ' ' && inside then
        blockGap? known fuel (max widest (cur.column + 1)) lines (cur.next 1)
      else if c = '\t' && inside then none
      else if isBreak c then
        let (after, line) := cur.nextLine
        blockGap? known fuel widest (lines ++ line) after
      else some (lines, widest, cur)
    | [] => some (lines, widest, cur)

/-- The lines of a block: `back` is what has been read, last character first,
    `pending` the end of the last line, `lines` the line ends after it, and
    `indented` tells that the last line started with a blank. Gives the text,
    the end of the last line and the line ends after it. -/
def blockLines? (folded : Bool) (indent : Nat) :
    Nat → List Char → List Char → List Char → Bool → Cursor →
      Option (List Char × List Char × List Char × Cursor)
  | 0, _, _, _, _, _ => none
  | fuel + 1, back, pending, lines, indented, cur =>
    match cur.rest with
    | [] => some (back.reverse, pending, lines, cur)
    | c :: _ =>
      if cur.column ≠ indent then some (back.reverse, pending, lines, cur)
      else
        let startsGap := isGap c
        let join :=
          if folded && pending = ['\n'] && !indented && !startsGap then
            if lines.isEmpty then [' '] else []
          else pending
        let (line, cur) := cur.span fun c => !isBreak c
        let back := (join ++ lines ++ line).reverse ++ back
        let (cur, ending) := cur.nextLine
        match blockGap? (some indent) (cur.rest.length + 1) 0 [] cur with
        | some (lines, _, cur) =>
          blockLines? folded indent fuel back ending lines startsGap cur
        | none => none

/-- A block scalar, from its indicator on. `indent` is the indentation of the
    collection around it, `-1` outside of all. -/
def readBlock? (indent : Int) (cur : Cursor) : Option ScalarRead :=
  let folded := cur.rest.head? = some '>'
  match blockHeader? (cur.next 1) with
  | none => none
  | some (chomp, width, cur) =>
    let known := width.map fun n => if 0 ≤ indent then indent.toNat + n else n
    match blockGap? known (cur.rest.length + 1) cur.column [] cur with
    | none => none
    | some (lines, widest, cur) =>
      let column := known.getD (max (max widest (indent + 1).toNat) 1)
      match blockLines? folded column (cur.rest.length + 1) [] [] lines false cur with
      | none => none
      | some (text, pending, lines, cur) =>
        let ending := match chomp with
          | .strip => []
          | .clip => pending
          | .keep => pending ++ lines
        some ⟨text ++ ending, cur, false⟩

end Yaml

end UtilityCss
