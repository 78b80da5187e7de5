import UtilityCss.Text.Utf8

/-!
# Globs

Patterns for paths.

A glob is a list of pieces, and a path matches if the pieces take it up one
after another to its end. Matching goes byte by byte, so a question mark stands
for one byte and not for a character of several; a character outside ASCII in a
class stands for its bytes.

A piece can take up a text in several ways. Matching keeps all texts that may be
left, each once, so it never goes back.

Where parts of a path are kept separate, neither `?` nor `*` takes up a slash.
Two stars do, but only as a whole part of the path: `**/` at the start takes up
any parts or none, `/**` at the end whatever is below, and `/**/` any parts or
none between two others. A glob that is nothing but two stars matches
everything.

## Main definitions

* `GlobPiece`: The pieces of a glob.
* `GlobPiece.rests`: What can be left of a text after a piece.
* `Glob.accepts`: A text matches a glob.
-/

namespace UtilityCss

/-- A piece of a glob. -/
inductive GlobPiece where
  /-- A character that stands for itself. -/
  | char (c : Char)
  /-- Any byte: `?`. -/
  | anyByte
  /-- Any run of bytes: `*`. -/
  | run
  /-- Any parts of a path at its start: `**/`. -/
  | leading
  /-- Whatever is below: `/**`. -/
  | trailing
  /-- Any parts of a path between two others: `/**/`. -/
  | between
  /-- A byte of a class: `[a-z]`, `[!a-z]`. -/
  | oneOf (negated : Bool) (ranges : List (Char × Char))
  /-- One of several lists of pieces, empty ones left out. -/
  | oneBranch (branches : List (List GlobPiece))
deriving Repr, Inhabited

/-- A pattern for paths. -/
structure Glob where
  /-- The pieces. -/
  pieces : List GlobPiece
deriving Repr, Inhabited

namespace GlobPiece

/-- The byte that separates the parts of a path. -/
def slash : UInt8 := 47

/-- What is left after a byte of a kind. -/
def afterByte (p : UInt8 → Bool) : List UInt8 → List (List UInt8)
  | [] => []
  | b :: s => if p b then [s] else []

/-- What is left after a word. -/
def afterWord : List UInt8 → List UInt8 → List (List UInt8)
  | [], s => [s]
  | _ :: _, [] => []
  | a :: word, b :: s => if a = b then afterWord word s else []

/-- What is left after any run of bytes; of bytes that are no slash, if parts
    are separated. -/
def afterRun (separated : Bool) : List UInt8 → List (List UInt8)
  | [] => [[]]
  | b :: s => (b :: s) :: if separated && b = slash then [] else afterRun separated s

/-- What is left after each slash. -/
def afterSlashes : List UInt8 → List (List UInt8)
  | [] => []
  | b :: s => if b = slash then s :: afterSlashes s else afterSlashes s

/-- What is left after a slash at the start. -/
def afterSlash (f : List UInt8 → List (List UInt8)) : List UInt8 → List (List UInt8)
  | [] => []
  | b :: s => if b = slash then f s else []

/-- The bytes of a character. -/
def bytes (c : Char) : List UInt8 := Text.encode (String.singleton c)

/-- The byte is one of those that a range of a class stands for: the bytes
    between the last one of the first character and the first one of the last
    character, and all other bytes of the two. -/
def inRange (b : UInt8) (r : Char × Char) : Bool :=
  if r.1 = r.2 then (bytes r.1).contains b
  else
    match (bytes r.1).reverse, bytes r.2 with
    | low :: before, high :: after =>
      before.contains b || (low ≤ b && b ≤ high) || after.contains b
    | _, _ => false

/-- The byte is in a class. -/
def inClass (negated : Bool) (ranges : List (Char × Char)) (b : UInt8) : Bool :=
  ranges.any (inRange b) != negated

mutual

/-- The piece stands for nothing: all its branches are empty. -/
def isVoid : GlobPiece → Bool
  | oneBranch branches => areVoid branches
  | _ => false

/-- All pieces stand for nothing. -/
def isVoidList : List GlobPiece → Bool
  | [] => true
  | p :: ps => p.isVoid && isVoidList ps

/-- All branches stand for nothing. -/
def areVoid : List (List GlobPiece) → Bool
  | [] => true
  | b :: bs => isVoidList b && areVoid bs

end

mutual

/-- What can be left of a text after a piece. -/
def rests (separated : Bool) (s : List UInt8) : GlobPiece → List (List UInt8)
  | char c => afterWord (bytes c) s
  | anyByte => afterByte (fun b => !(separated && b = slash)) s
  | run => afterRun separated s
  | leading => s :: afterSlashes s
  | trailing => afterSlash (afterRun false) s
  | between => afterSlash (fun s => s :: afterSlashes s) s
  | oneOf negated ranges => afterByte (inClass negated ranges) s
  | oneBranch branches =>
    if areVoid branches then [s] else restsOfBranches separated s branches

/-- What can be left of one of some texts after pieces in order. -/
def restsOfList (separated : Bool) (ss : List (List UInt8)) :
    List GlobPiece → List (List UInt8)
  | [] => ss
  | p :: ps => restsOfList separated (ss.flatMap fun s => rests separated s p).eraseDups ps

/-- What can be left of a text after one of some branches that are not empty. -/
def restsOfBranches (separated : Bool) (s : List UInt8) :
    List (List GlobPiece) → List (List UInt8)
  | [] => []
  | b :: bs =>
    (if isVoidList b then [] else restsOfList separated [s] b)
      ++ restsOfBranches separated s bs

end

end GlobPiece

namespace Glob

/-- The glob is nothing but two stars. -/
def isEverything : Glob → Bool
  | ⟨[.leading]⟩ => true
  | _ => false

/-- A text matches a glob. -/
def accepts (separated : Bool) (g : Glob) (text : String) : Bool :=
  g.isEverything
    || (GlobPiece.restsOfList separated [Text.encode text] g.pieces).contains []

end Glob

end UtilityCss
