import UtilityCss.Glob

/-!
# Reading Globs

The glob that a text spells.

A text is read from left to right. Braces open branches, commas separate them,
and brackets hold classes; outside of those, a backslash takes the meaning away
from the character after it.

Two stars count as such only where a part of the path starts, and only if a
slash or the end follows; the slashes around them belong to them. Elsewhere they
are two runs.

## Main definitions

* `GlobDraft`: What has been read.
* `GlobClass`: A class that is being read.
* `Glob.parse?`: The glob that a text spells.
-/

namespace UtilityCss

/-- What has been read of a glob. -/
structure GlobDraft where
  /-- The pieces of the innermost open branch, last one first. -/
  pieces : List GlobPiece
  /-- For every open brace, from the inside out: its finished branches, last one
      first, and the pieces before it, last one first. -/
  around : List (List (List GlobPiece) × List GlobPiece)
deriving Repr, Inhabited

namespace GlobDraft

/-- Nothing read. -/
def empty : GlobDraft := ⟨[], []⟩

/-- One piece more. -/
def push (d : GlobDraft) (p : GlobPiece) : GlobDraft := { d with pieces := p :: d.pieces }

/-- The last piece replaced. -/
def replaceLast (d : GlobDraft) (p : GlobPiece) : GlobDraft :=
  { d with pieces := p :: d.pieces.tail }

/-- A brace opened. -/
def openBrace (d : GlobDraft) : GlobDraft := ⟨[], ([], d.pieces) :: d.around⟩

/-- A brace closed, if there is one open. -/
def closeBrace? (d : GlobDraft) : Option GlobDraft :=
  match d.around with
  | [] => none
  | (branches, before) :: around =>
    some ⟨.oneBranch (d.pieces.reverse :: branches).reverse :: before, around⟩

/-- A comma read. It separates branches if a brace is open. -/
def comma (d : GlobDraft) : GlobDraft :=
  match d.around with
  | [] => d.push (.char ',')
  | (branches, before) :: around => ⟨[], (d.pieces.reverse :: branches, before) :: around⟩

/-- Two runs. -/
def runs (d : GlobDraft) : GlobDraft := (d.push .run).push .run

/-- Two stars that are a whole part of a path, after something else. They take
    the place of the slash before them; after two stars they add nothing. -/
def stars (d : GlobDraft) (p : GlobPiece) : GlobDraft :=
  match d.pieces with
  | .leading :: _ => d
  | .trailing :: _ => d
  | _ => d.replaceLast p

/-- A part of a path starts after a character. -/
def startsPart (d : GlobDraft) (before : Option Char) : Bool :=
  before = some '/' || (!d.around.isEmpty && (before = some ',' || before = some '{'))

/-- Two stars read between two characters, and whether the one after them
    belongs to them. -/
def twoStars (d : GlobDraft) (before after : Option Char) : GlobDraft × Bool :=
  if d.pieces.isEmpty then
    match after with
    | none => (d.push .leading, false)
    | some '/' => (d.push .leading, true)
    | some _ => (d.runs, false)
  else if d.startsPart before then
    match after with
    | none => (d.stars .trailing, false)
    | some '/' => (d.stars .between, true)
    | some c =>
      if !d.around.isEmpty && (c = ',' || c = '}') then (d.stars .trailing, false)
      else (d.runs, false)
  else (d.runs, false)

end GlobDraft

/-- A class that is being read. -/
structure GlobClass where
  /-- Nothing of the class has been read, not even a mark of negation. -/
  fresh : Bool
  /-- It holds the bytes that are not listed. -/
  negated : Bool
  /-- The ranges, last one first. -/
  ranges : List (Char × Char)
  /-- A hyphen has been read that may make a range. -/
  pending : Bool
deriving Repr, Inhabited

namespace GlobClass

/-- A class that has just been opened. -/
def start : GlobClass := ⟨true, false, [], false⟩

/-- A character added to a class, as the end of a range if one is open. A range
    that runs backwards is an error. -/
def add? (k : GlobClass) (c : Char) : Option GlobClass :=
  match k.pending, k.ranges with
  | true, (first, _) :: rest =>
    if c < first then none else some ⟨false, k.negated, (first, c) :: rest, false⟩
  | _, ranges => some ⟨false, k.negated, (c, c) :: ranges, false⟩

/-- The piece of a class that has been closed. A hyphen at its end stands for
    itself. -/
def piece (k : GlobClass) : GlobPiece :=
  .oneOf k.negated (if k.pending then ('-', '-') :: k.ranges else k.ranges).reverse

/-- A character read in a class: the class goes on, or it is closed. -/
def read? (k : GlobClass) (c : Char) : Option (GlobClass ⊕ GlobPiece) :=
  if k.fresh && (c = '!' || c = '^') then some (.inl { k with fresh := false, negated := true })
  else if c = ']' && !k.ranges.isEmpty then some (.inr k.piece)
  else if c = '-' && !k.ranges.isEmpty && !k.pending then
    some (.inl { k with fresh := false, pending := true })
  else (k.add? c).map .inl

end GlobClass

namespace Glob

/-- A text read on from a draft. `here` is the class that is open, if there is
    one, and `before` the character before the text. -/
def read? (here : Option GlobClass) (before : Option Char) (d : GlobDraft) :
    List Char → Option GlobDraft
  | [] => if here.isNone then some d else none
  | c :: cs =>
    match here with
    | some k =>
      match k.read? c with
      | none => none
      | some (.inl k) => read? (some k) (some c) d cs
      | some (.inr p) => read? none (some c) (d.push p) cs
    | none =>
      match c, cs with
      | '*', '*' :: cs =>
        match d.twoStars before cs.head?, cs with
        | (d, true), _ :: cs => read? none (some '/') d cs
        | (d, _), cs => read? none (some '*') d cs
      | '*', cs => read? none (some c) (d.push .run) cs
      | '?', cs => read? none (some c) (d.push .anyByte) cs
      | '[', cs => read? (some GlobClass.start) (some c) d cs
      | '{', cs => read? none (some c) d.openBrace cs
      | '}', cs =>
        match d.closeBrace? with
        | some d => read? none (some c) d cs
        | none => none
      | ',', cs => read? none (some c) d.comma cs
      | '\\', [] => none
      | '\\', e :: cs => read? none (some e) (d.push (.char e)) cs
      | c, cs => read? none (some c) (d.push (.char c)) cs

/-- The glob that a text spells, or `none` if the text is malformed. -/
def parse? (text : String) : Option Glob :=
  match read? none none GlobDraft.empty text.toList with
  | some d => if d.around.isEmpty then some ⟨d.pieces.reverse⟩ else none
  | none => none

end Glob

end UtilityCss
